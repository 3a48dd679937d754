/-
# Explicit defaults of fields

The schema may give a field an explicit default.  The expression for it is `None` for a pointer
that is null or empty, so that the accessor of the field falls back to what is empty, and
otherwise a literal of the default.
-/
import Recapn.Codegen.Defaults
import Recapn.Codegen.Generate

namespace Recapn.Codegen.Defaults

open Recapn.Lib Recapn.Ptr

/-! ## Values of a schema -/

/-- `text::Reader`: its bytes with the NUL at their end. -/
structure TextReader where
  bytes : List Byte
  nul : bytes.getLast? = some 0
  length_lt : bytes.length < 2 ^ 29

/-- `data::Reader`. -/
structure DataReader where
  bytes : List Byte
  length_lt : bytes.length < 2 ^ 29

namespace TextReader

/-- `text::Reader::from_slice`; there is nothing when it panics. -/
def fromSlice (s : List Byte) : Option TextReader :=
  if h : s.getLast? = some 0 ∧ s.length < 2 ^ 29 then some ⟨s, h.1, h.2⟩ else none

/-- `text::Reader::is_empty`. -/
def isEmpty (text : TextReader) : Bool := text.bytes.length == 1

/-- `text::Reader::as_bytes_with_nul`. -/
def asBytesWithNul (text : TextReader) : List Byte := text.bytes

@[simp] lemma fromSlice_asBytesWithNul (text : TextReader) : fromSlice text.asBytesWithNul = some text :=
  dif_pos ⟨text.nul, text.length_lt⟩

end TextReader

namespace DataReader

/-- `data::Reader::from_slice`. -/
def fromSlice (s : List Byte) : Option DataReader := if h : s.length < 2 ^ 29 then some ⟨s, h⟩ else none

/-- `data::Reader::is_empty`. -/
def isEmpty (data : DataReader) : Bool := data.bytes.isEmpty

@[simp] lemma fromSlice_bytes (data : DataReader) : fromSlice data.bytes = some data := dif_pos data.length_lt

end DataReader

/-- `schema_capnp::Value`, the variants of which are read by their accessors.  The signed and the
floating numbers are their bits. -/
inductive DefaultValue where
  | prim (p : Primitive) (bits : ℕ)
  | text (text : TextReader)
  | data (data : DataReader)
  | list (ptr : PtrReader)
  | enum (value : ℕ)
  | struct (ptr : PtrReader)
  | interface
  | anyPointer (ptr : PtrReader)

namespace DefaultValue

/-- `value.$field().get().unwrap_or_default()`. -/
def primOrDefault (value : DefaultValue) (p : Primitive) : ℕ :=
  match value with
  | .prim p' bits => if p' = p then bits else 0
  | _ => 0

/-- `value.r#enum().get().unwrap_or(0)`. -/
def enumOrZero : DefaultValue → ℕ
  | .enum value => value
  | _ => 0

/-- `value.text().field().map(|v| v.get())`. -/
def textField : DefaultValue → Option TextReader
  | .text t => some t
  | _ => none

/-- `value.data().field().map(|v| v.get())`. -/
def dataField : DefaultValue → Option DataReader
  | .data d => some d
  | _ => none

/-- `value.list().field().map(|v| v.ptr())`. -/
def listPtr : DefaultValue → Option PtrReader
  | .list ptr => some ptr
  | _ => none

/-- `value.r#struct().field().map(|f| f.ptr())`. -/
def structPtr : DefaultValue → Option PtrReader
  | .struct ptr => some ptr
  | _ => none

/-- `value.any_pointer().field().map(|f| f.ptr())`. -/
def anyPtr : DefaultValue → Option PtrReader
  | .anyPointer ptr => some ptr
  | _ => none

end DefaultValue

/-! ## The expressions for them -/

/-- What is emitted: `None` or a literal, which is in `Some` when the field is a pointer. -/
inductive Emitted where
  | none
  | literal (p : Primitive) (bits : ℕ)
  | enumerant (type : Path) (enumerant : Ident)
  /-- `text::Reader::from_slice(bytes)` -/
  | text (bytes : List Byte)
  /-- `data::Reader::from_slice(bytes)` -/
  | data (bytes : List Byte)
  | struct (s : StructValue)
  | list (l : ListValue)
  /-- `PtrReader::slice_unchecked(words)` -/
  | ptr (words : Slice)

/-- `StructSchema::struct_size`. -/
def structSize (schema : StructSchema) : StructSize :=
  ⟨schema.info.dataWordCount % 2 ^ 16, schema.info.pointerCount % 2 ^ 16, Nat.mod_lt _ (by decide),
    Nat.mod_lt _ (by decide)⟩

/-- `read_option_as`.  What cannot be read is not there. -/
def readOption {ε α : Type} (read : PtrReader → ReadM (Option α)) (ptr : Option PtrReader) :
    Prog ε Limiter (Option α) := fun limiter =>
  match ptr with
  | .none => .ok .none limiter
  | some p =>
    match read p limiter with
    | .ok v l => .ok v l
    | .error _ l => .ok .none l
    | .halt h => .halt h

/-- The element size that a list of the type has.  There is none when the assertion for lists of any
struct fails. -/
def expectedElementSize (type : Ty) (valueElementSize : ElementSize) : Option ElementSize :=
  if 1 < type.listDepth then some .pointer
  else
    match type.kind with
    | .prim .void => some .void
    | .prim .bool => some .bit
    | .prim .int8 | .prim .uint8 => some .byte
    | .prim .int16 | .prim .uint16 | .enum _ _ => some .twoBytes
    | .prim .int32 | .prim .uint32 | .prim .float32 => some .fourBytes
    | .prim .int64 | .prim .uint64 | .prim .float64 => some .eightBytes
    | .struct schema _ => some (.inlineComposite (structSize schema))
    | .anyStruct =>
      match valueElementSize with
      | .inlineComposite _ => some valueElementSize
      | _ => .none
    | _ => some .pointer

/-- The part that lists of a type and `AnyList` share, with the assertion of the one. -/
def emitList (depth : ℕ) (ptr : Option PtrReader) (check : ListReader → Prog Stop Limiter Unit) :
    Prog Stop Limiter Emitted := do
  let value ← readOption (fun p => p.toList .none) ptr
  match value.filter fun l => l.elementCount.get != 0 with
  | some value => do
    check value
    let expr ← generateUntypedListValue depth value
    pure (.list expr)
  | .none => pure .none

/-- The part that structs of a type and `AnyStruct` share. -/
def emitStruct (depth : ℕ) (ptr : Option PtrReader) (check : StructReader → Prog Stop Limiter Unit) :
    Prog Stop Limiter Emitted := do
  let value ← readOption PtrReader.toStruct ptr
  match value.filter fun s => !s.size.isEmpty with
  | some s => do
    check s
    let expr ← generateUntypedStructValue depth s
    pure (.struct expr)
  | .none => pure .none

section Generate

variable (ctx : GeneratorContext)

/-- `find_info(id)?.unwrap_enum()`. -/
def findEnum (id : Id) : Prog Stop Limiter EnumInfo := do
  let info ← liftError (match ctx.info.lookup id with
    | some info => .ok info
    | .none => .error (.schema (.missingNode id)))
  info.unwrapEnum

/-- `generate_data_value`.  Types of other kinds are unimplemented. -/
def generateDataValue (scope : TypeScope) (kind : TypeKind) (value : DefaultValue) : Prog Stop Limiter Emitted :=
  match kind with
  | .prim .void => pure (.literal .void 0)
  | .prim p => pure (.literal p (value.primOrDefault p))
  | .enum schema _ => do
    let info ← findEnum ctx schema.node.id
    let enumerant ← Prog.unwrap (info.enumerants[value.enumOrZero]?)
    pure (.enumerant (info.typeInfo.resolvePath scope) enumerant)
  | _ => Prog.halt .panic

/-- `generate_field_default_value`. -/
def generateFieldDefaultValue (depth : ℕ) (scope : TypeScope) (type : Ty) (value : DefaultValue) :
    Prog Stop Limiter Emitted :=
  if type.isList then
    emitList depth value.listPtr fun list => do
      let expected ← Prog.unwrap (expectedElementSize type list.elementSize)
      Prog.assert (list.elementSize = expected)
  else if type.isDataField then generateDataValue ctx scope type.kind value
  else
    match type.kind with
    | .text =>
      match value.textField.filter fun t => !t.isEmpty with
      | some text => pure (.text text.asBytesWithNul)
      | .none => pure .none
    | .data =>
      match value.dataField.filter fun d => !d.isEmpty with
      | some data => pure (.data data.bytes)
      | .none => pure .none
    | .struct schema _ => emitStruct depth value.structPtr fun s => Prog.assert (structSize schema = s.size)
    | .anyPointer =>
      match value.anyPtr.filter PtrReader.isNull with
      | some p => do
        let slice ← ptrToSlice depth p
        pure (.ptr slice)
      | .none => pure .none
    | .anyStruct => emitStruct depth value.anyPtr fun _ => pure ()
    | .anyList => emitList depth value.anyPtr fun _ => pure ()
    | .interface _ _ | .anyCapability | .scopeBound _ _ | .implicitMethodParameter _ => pure .none
    | .prim _ | .enum _ _ => Prog.halt .panic

end Generate

/-! ## What they mean -/

/-- A default as the schema has it. -/
inductive Meaning where
  | bits (p : Primitive) (n : ℕ)
  /-- The enumerant of the enum with this number. -/
  | enumerant (id : Id) (n : ℕ)
  | text (t : TextReader)
  | data (d : DataReader)
  | ptr (v : Ptr.Value)

/-- The value is null, a struct of size zero or a list without elements. -/
def IsEmptyValue : Ptr.Value → Prop
  | .null => True
  | .capability _ => False
  | .object (.struct size) _ _ => size.total = 0
  | .object (.list _ count) _ _ => count.get = 0

namespace Meaning

/-- It is null or empty. -/
def IsEmpty : Meaning → Prop
  | bits _ _ => False
  | enumerant _ _ => False
  | text t => t.isEmpty = true
  | data d => d.isEmpty = true
  | ptr v => IsEmptyValue v

end Meaning

/-- The expression denotes the default: a slot of zeros that is read with it reads as the default, and
a reader that is made of it reads as the default. -/
def Emitted.Denotes (ctx : GeneratorContext) (scope : TypeScope) : Emitted → Meaning → Prop
  | .literal p bits, .bits p' n => p = p' ∧ ∀ (type : DataType) (slot : ℕ), type.read Word.null slot ^^^ bits = n
  | .enumerant type ident, .enumerant id n => ∃ info, ctx.info.lookup id = some (.enum info) ∧
      type = info.typeInfo.resolvePath scope ∧ info.enumerants[n]? = some ident
  | .text bytes, .text t => TextReader.fromSlice bytes = some t
  | .data bytes, .data d => DataReader.fromSlice bytes = some d
  | .struct s, .ptr v => ∃ r block vs, s.Denotes r block vs ∧ r.value block vs = v
  | .list l, .ptr v => ∃ list, l.Denotes list v ∧ v.shape = some (.list list.elementSize list.elementCount)
  | .ptr words, .ptr v => ReadsUnchecked words.data 0 words.len 0 v
  | _, _ => False

/-- The expression is `None` just when the default is null or empty, and otherwise it denotes the
default. -/
def Right (ctx : GeneratorContext) (scope : TypeScope) (m : Meaning) (o : Outcome Stop Limiter Emitted) : Prop :=
  ∃ e l, o = .ok e l ∧ (e = .none ↔ m.IsEmpty) ∧ (¬ m.IsEmpty → e.Denotes ctx scope m)

/-- The pointer is one of a node that the loader keeps, which has room for the value and for a root
pointer. -/
structure Kept (p : PtrReader) (v : Ptr.Value) : Prop where
  reads : ∃ block, p.ReadsUnchecked block v
  words_lt : v.words + 1 < 2 ^ 29

/-- The value is null or a struct. -/
def IsStruct (v : Ptr.Value) : Prop := ∃ size, v.shape = some (.struct size)

/-- The value is null or a list. -/
def IsList (v : Ptr.Value) : Prop := v = .null ∨ ∃ size count, v.shape = some (.list size count)

/-- The value of the schema is a default for a field of the type, with this meaning. -/
inductive IsDefault : Ty → DefaultValue → Meaning → Prop
  | void : IsDefault (.mk 0 (.prim .void)) (.prim .void 0) (.bits .void 0)
  | prim (p : Primitive) (n : ℕ) (hp : p ≠ .void) : IsDefault (.mk 0 (.prim p)) (.prim p n) (.bits p n)
  | enum (schema : EnumSchema) (parameters : List (Id × ScopeBranding)) (n : ℕ) :
      IsDefault (.mk 0 (.enum schema parameters)) (.enum n) (.enumerant schema.node.id n)
  | text (t : TextReader) : IsDefault (.mk 0 .text) (.text t) (.text t)
  | data (d : DataReader) : IsDefault (.mk 0 .data) (.data d) (.data d)
  | list (depth : ℕ) (kind : TypeKind) {p : PtrReader} {v : Ptr.Value} (hkept : Kept p v) (hlist : IsList v) :
      IsDefault (.mk (depth + 1) kind) (.list p) (.ptr v)
  | struct (schema : StructSchema) (parameters : List (Id × ScopeBranding)) {p : PtrReader} {v : Ptr.Value}
      (hkept : Kept p v) (hstruct : IsStruct v) :
      IsDefault (.mk 0 (.struct schema parameters)) (.struct p) (.ptr v)
  | anyPointer {p : PtrReader} {v : Ptr.Value} (hkept : Kept p v) :
      IsDefault (.mk 0 .anyPointer) (.anyPointer p) (.ptr v)
  | anyStruct {p : PtrReader} {v : Ptr.Value} (hkept : Kept p v) (hstruct : IsStruct v) :
      IsDefault (.mk 0 .anyStruct) (.anyPointer p) (.ptr v)
  | anyList {p : PtrReader} {v : Ptr.Value} (hkept : Kept p v) (hlist : IsList v) :
      IsDefault (.mk 0 .anyList) (.anyPointer p) (.ptr v)

/-- The elements are not structs, or they are empty. -/
def Untagged : ElementSize → Prop
  | .inlineComposite size => size.total = 0
  | _ => True

/-- What the generator handles: enumerants of the enum, structs and elements of the sizes of their
types, lists that have no tag, and of the defaults of `AnyPointer` those that are empty but not null. -/
def Handled (ctx : GeneratorContext) : Ty → Meaning → Prop
  | .mk (depth + 1) kind, .ptr v => IsEmptyValue v ∨ ∃ size count, v.shape = some (.list size count) ∧
      expectedElementSize (.mk (depth + 1) kind) size = some size ∧ Untagged size
  | .mk 0 (.enum _ _), .enumerant id n => ∃ info, ctx.info.lookup id = some (.enum info) ∧
      n < info.enumerants.length
  | .mk 0 (.struct schema _), .ptr v => IsEmptyValue v ∨ v.shape = some (.struct (structSize schema))
  | .mk 0 .anyPointer, .ptr v => v ≠ .null ∧ IsEmptyValue v
  | .mk 0 .anyList, .ptr v => IsEmptyValue v ∨ ∃ size count, v.shape = some (.list size count) ∧ Untagged size
  | _, _ => True

/-- The value is a list of structs, the first of which looks like the tag of the list. -/
def LooksTagged (v : Ptr.Value) : Prop :=
  ∃ size count, v.shape = some (.list (.inlineComposite size) count) ∧ v.BeginsLikeTag size count

/-! ## Defaults that are handled -/

section Right

variable {ctx : GeneratorContext} {scope : TypeScope} {p : PtrReader} {v : Ptr.Value} {m : Meaning}
  {e : Emitted} {size : ElementSize} {count : ElementCount}

lemma right_none (h : m.IsEmpty) {limiter : Limiter} : Right ctx scope m (.ok .none limiter) :=
  ⟨.none, limiter, rfl, ⟨fun _ => h, fun _ => rfl⟩, fun hnot => absurd h hnot⟩

lemma right_of_denotes (hnot : ¬ m.IsEmpty) (h : e.Denotes ctx scope m) {limiter : Limiter} :
    Right ctx scope m (.ok e limiter) := by
  refine ⟨e, limiter, rfl, ⟨?_, fun hempty => absurd hempty hnot⟩, fun _ => h⟩
  rintro rfl
  cases m <;> exact absurd h id

lemma not_right_halt {h : Halt} : ¬ Right ctx scope m (.halt h) := fun ⟨_, _, heq, _⟩ => nomatch heq

lemma isEmptyValue_list (h : v.shape = some (.list size count)) : IsEmptyValue v ↔ count.get = 0 := by
  cases v with
  | null | capability => cases h
  | object => cases h; rfl

lemma isEmptyValue_struct {size : StructSize} (h : v.shape = some (.struct size)) :
    IsEmptyValue v ↔ size.total = 0 := by
  cases v with
  | null => cases h; exact ⟨fun _ => rfl, fun _ => trivial⟩
  | capability => cases h
  | object => cases h; rfl

/-- Only the element size and the number of elements of the list matter. -/
lemma ListValue.Denotes.congr {literal : ListValue} {list list' : ListReader} (h : literal.Denotes list v)
    (hsize : list.elementSize = list'.elementSize) (hcount : list.elementCount = list'.elementCount) :
    literal.Denotes list' v where
  reader := h.reader
  elementCount := h.elementCount.trans hcount
  elementSize := h.elementSize.trans hsize
  inside := h.inside
  word := h.word
  reads := h.reads
  nested := h.nested

lemma readOption_some {α : Type} {read : PtrReader → ReadM (Option α)} {found : Option α}
    (h : read p none = .ok found none) : (readOption read (some p) : Prog Stop Limiter _) none = .ok found none := by
  simp only [readOption, h]

/-- A list of the schema that is not null and has elements. -/
lemma emitList_of_list {depth : ℕ} {list : ListReader} {check : ListReader → Prog Stop Limiter Unit}
    (hrun : p.toList .none none = .ok (some list) none) (hcount : list.elementCount.get ≠ 0) :
    emitList depth (some p) check none = (do
      check list
      let expr ← generateUntypedListValue depth list
      pure (Emitted.list expr)) none := by
  have hfilter : Option.filter (fun l : ListReader => l.elementCount.get != 0) (some list) = some list :=
    Option.filter_some_pos (bne_iff_ne.2 hcount)
  rw [emitList, Prog.bind_of_ok (readOption_some hrun), hfilter]

/-- **Lists without a tag are emitted**, and others only if they look like one. -/
theorem emitList_right {check : ListReader → Prog Stop Limiter Unit} {accepts : ElementSize → Prop}
    (hcheck : ∀ list, (accepts list.elementSize ∧ check list = pure ()) ∨
      (¬ accepts list.elementSize ∧ check list = Prog.halt .panic)) (hkept : Kept p v) (hlist : IsList v) :
    ∀ᶠ depth in Filter.atTop,
      ((IsEmptyValue v ∨ ∃ size count, v.shape = some (.list size count) ∧ accepts size ∧ Untagged size) →
        Right ctx scope (.ptr v) (emitList depth (some p) check none)) ∧
      (Right ctx scope (.ptr v) (emitList depth (some p) check none) →
        (IsEmptyValue v ∨ ∃ size count, v.shape = some (.list size count) ∧ accepts size ∧ Untagged size) ∨
          LooksTagged v) := by
  obtain ⟨block, hreads⟩ := hkept.reads
  obtain rfl | ⟨size, count, hshape⟩ := hlist
  · refine Filter.Eventually.of_forall fun depth => ⟨fun _ => ?_, fun _ => Or.inl (Or.inl trivial)⟩
    have hnull : p.isNull = true := hreads.isNull_iff.2 rfl
    have hrun : p.toList .none none = .ok .none none := by
      rw [PtrReader.toList, if_pos hnull]
      rfl
    have hempty : (Meaning.ptr .null).IsEmpty := trivial
    rw [emitList, Prog.bind_of_ok (readOption_some hrun)]
    exact right_none hempty
  · obtain ⟨list, hrun, hlist, rfl, rfl⟩ := hreads.toList hshape
    have hempty := isEmptyValue_list hshape
    by_cases hcount : list.elementCount.get = 0
    · refine Filter.Eventually.of_forall fun depth => ⟨fun _ => ?_, fun _ => Or.inl (Or.inl (hempty.2 hcount))⟩
      rw [emitList, Prog.bind_of_ok (readOption_some hrun), Option.filter_some_neg (by rw [hcount]; decide)]
      have hempty : (Meaning.ptr v).IsEmpty := hempty.2 hcount
      exact right_none hempty
    · have hnot : ¬ (Meaning.ptr v).IsEmpty := fun h => hcount (hempty.1 h)
      have hinj : ∀ {size count}, v.shape = some (.list size count) → size = list.elementSize := by
        intro size count h
        cases hshape.symm.trans h
        rfl
      obtain ⟨haccepts, hpass⟩ | ⟨haccepts, hpanic⟩ := hcheck list
      · -- what is emitted is right when it denotes the list
        have hemitted : ∀ depth, emitList depth (some p) check none =
            ((generateUntypedListValue depth list : Prog Stop Limiter ListValue) >>= fun expr =>
              pure (Emitted.list expr)) none := by
          intro depth
          rw [emitList_of_list hrun hcount, hpass, Prog.pure_bind_eq]
        by_cases huntagged : Untagged list.elementSize
        · have hstructs : ¬ OfStructs list := by
            rintro ⟨size, hsize, hne⟩
            rw [hsize] at huntagged
            exact hne huntagged
          refine (@generateUntypedListValue_denotes Stop list v hlist hkept.words_lt hstructs none).mono fun depth hspec =>
            ⟨fun _ => ?_, fun _ => Or.inl (Or.inr ⟨_, _, hshape, haccepts, huntagged⟩)⟩
          obtain ⟨literal, l, hok, hdenotes⟩ := hspec.resolve_right fun h => h.1 rfl
          rw [hemitted, Prog.bind_of_ok hok]
          have hlist : (Emitted.list literal).Denotes ctx scope (.ptr v) := ⟨list, hdenotes, hshape⟩
          exact right_of_denotes hnot hlist
        · obtain ⟨size, hsize, hne⟩ : ∃ size, list.elementSize = .inlineComposite size ∧ size.total ≠ 0 := by
            rcases hsize : list.elementSize with _ | _ | _ | _ | _ | _ | _ | size <;> rw [hsize] at huntagged
            case inlineComposite => exact ⟨size, rfl, huntagged⟩
            all_goals exact absurd trivial huntagged
          refine (@beginsLikeTag_of_denotes Stop list v hlist hkept.words_lt size hsize hne hcount none).mono
            fun depth hlike => ⟨fun h => ?_, fun hright => Or.inr ⟨size, _, hsize ▸ hshape, hlike ?_⟩⟩
          · obtain ⟨size', count, hshape', -, huntagged'⟩ := h.resolve_left hnot
            exact absurd (hinj hshape' ▸ huntagged') huntagged
          · rw [hemitted] at hright
            obtain ⟨e, l, hok, -, hdenotes⟩ := hright
            obtain ⟨literal, l', hliteral, hpure⟩ := Prog.bind_eq_ok.1 hok
            cases hpure
            obtain ⟨list', hlist', hshape'⟩ := hdenotes hnot
            have heq := Option.mem_unique hshape hshape'
            rw [Shape.list.injEq] at heq
            exact ⟨literal, _, hliteral, hlist'.congr heq.1.symm heq.2.symm⟩
      · refine Filter.Eventually.of_forall fun depth => ?_
        rw [emitList_of_list hrun hcount, hpanic]
        refine ⟨fun h => ?_, fun h => absurd h not_right_halt⟩
        obtain ⟨size, count, hshape', haccepts', -⟩ := h.resolve_left hnot
        exact absurd (hinj hshape' ▸ haccepts') haccepts

/-- **Structs of the right size are emitted.** -/
theorem emitStruct_right {check : StructReader → Prog Stop Limiter Unit} {accepts : StructSize → Prop}
    (hcheck : ∀ s : StructReader, (accepts s.size ∧ check s = pure ()) ∨
      (¬ accepts s.size ∧ check s = Prog.halt .panic)) (hkept : Kept p v) (hstruct : IsStruct v) :
    ∀ᶠ depth in Filter.atTop, Right ctx scope (.ptr v) (emitStruct depth (some p) check none) ↔
      IsEmptyValue v ∨ ∃ size, v.shape = some (.struct size) ∧ accepts size := by
  obtain ⟨block, hreads⟩ := hkept.reads
  obtain ⟨size, hshape⟩ := hstruct
  have hempty := isEmptyValue_struct hshape
  by_cases hnull : v = .null
  · obtain rfl := hnull
    refine Filter.Eventually.of_forall fun depth => ⟨fun _ => Or.inl trivial, fun _ => ?_⟩
    have hrun : p.toStruct none = .ok .none none := by
      rw [PtrReader.toStruct, if_pos (hreads.isNull_iff.2 rfl)]
      rfl
    have hempty : (Meaning.ptr .null).IsEmpty := trivial
    rw [emitStruct, Prog.bind_of_ok (readOption_some hrun)]
    exact right_none hempty
  · obtain ⟨s, vs, hrun, hs, hvalue, rfl⟩ := hreads.toStruct hshape hnull
    by_cases hzero : s.size.total = 0
    · refine Filter.Eventually.of_forall fun depth => ⟨fun _ => Or.inl (hempty.2 hzero), fun _ => ?_⟩
      have hfilter : Option.filter (fun s : StructReader => !s.size.isEmpty) (some s) = .none := by
        refine Option.filter_some_neg ?_
        rw [StructSize.isEmpty_iff.2 (StructSize.total_eq_zero_iff.1 hzero)]
        rfl
      have hempty : (Meaning.ptr v).IsEmpty := hempty.2 hzero
      rw [emitStruct, Prog.bind_of_ok (readOption_some hrun), hfilter]
      exact right_none hempty
    · have hnot : ¬ (Meaning.ptr v).IsEmpty := fun h => hzero (hempty.1 h)
      have hfilter : Option.filter (fun s : StructReader => !s.size.isEmpty) (some s) = some s := by
        refine Option.filter_some_pos ?_
        rw [Bool.not_eq_true', Bool.eq_false_iff, ne_eq, StructSize.isEmpty_iff, ← StructSize.total_eq_zero_iff]
        exact hzero
      have hrest : ∀ depth, emitStruct depth (some p) check none = (do
          check s
          let expr ← generateUntypedStructValue depth s
          pure (Emitted.struct expr)) none := by
        intro depth
        rw [emitStruct, Prog.bind_of_ok (readOption_some hrun), hfilter]
      obtain ⟨haccepts, hpass⟩ | ⟨haccepts, hpanic⟩ := hcheck s
      · have hlt : (s.value block vs).words + 1 < 2 ^ 29 := by
          rw [hvalue]
          exact hkept.words_lt
        refine (@generateUntypedStructValue_denotes Stop s block vs hs hzero hlt none).mono fun depth hspec =>
          ⟨fun _ => Or.inr ⟨_, hshape, haccepts⟩, fun _ => ?_⟩
        obtain ⟨literal, l, hok, hdenotes⟩ := hspec.resolve_right fun h => h.1 rfl
        have hstruct : (Emitted.struct literal).Denotes ctx scope (.ptr v) := ⟨s, block, vs, hdenotes, hvalue⟩
        rw [hrest, hpass, Prog.pure_bind_eq, Prog.bind_of_ok hok]
        exact right_of_denotes hnot hstruct
      · refine Filter.Eventually.of_forall fun depth => ?_
        rw [hrest, hpanic]
        refine ⟨fun h => absurd h not_right_halt, fun h => ?_⟩
        obtain ⟨size, hshape', haccepts'⟩ := h.resolve_left hnot
        cases hshape.symm.trans hshape'
        exact absurd haccepts' haccepts

/-- **An `AnyPointer` is not emitted unless it is null**, and so the default is lost unless it is empty. -/
theorem anyPointer_right (hkept : Kept p v) (depth : ℕ) :
    Right ctx scope (.ptr v) (generateFieldDefaultValue ctx depth scope (.mk 0 .anyPointer) (.anyPointer p) none) ↔
      v ≠ .null ∧ IsEmptyValue v := by
  obtain ⟨block, hreads⟩ := hkept.reads
  by_cases hnull : v = .null
  · obtain rfl := hnull
    have hfilter : Option.filter PtrReader.isNull (some p) = some p :=
      Option.filter_some_pos (hreads.isNull_iff.2 rfl)
    have hrun : generateFieldDefaultValue ctx depth scope (.mk 0 .anyPointer) (.anyPointer p) none =
        ((ptrToSlice depth p : Prog Stop Limiter Slice) >>= fun slice => pure (Emitted.ptr slice)) none := by
      show (match Option.filter PtrReader.isNull (some p) with
        | some p => ptrToSlice depth p >>= fun slice => pure (Emitted.ptr slice)
        | .none => pure .none : Prog Stop Limiter Emitted) none = _
      rw [hfilter]
    rw [hrun]
    refine ⟨fun ⟨e, l, hok, hnone, _⟩ => ?_, fun h => absurd rfl h.1⟩
    obtain ⟨slice, l', -, hpure⟩ := Prog.bind_eq_ok.1 hok
    cases hpure
    cases hnone.2 trivial
  · have hfilter : Option.filter PtrReader.isNull (some p) = .none := by
      refine Option.filter_some_neg ?_
      rw [Bool.eq_false_iff, ne_eq, hreads.isNull_iff]
      exact hnull
    have hrun : generateFieldDefaultValue ctx depth scope (.mk 0 .anyPointer) (.anyPointer p) none =
        .ok .none none := by
      show (match Option.filter PtrReader.isNull (some p) with
        | some p => ptrToSlice depth p >>= fun slice => pure (Emitted.ptr slice)
        | .none => pure .none : Prog Stop Limiter Emitted) none = _
      rw [hfilter]
      rfl
    rw [hrun]
    refine ⟨fun ⟨e, l, hok, hnone, _⟩ => ⟨hnull, ?_⟩, fun h => right_none (show (Meaning.ptr v).IsEmpty from h.2)⟩
    cases hok
    exact hnone.1 rfl

/-- A slot of zeros reads as the default of the field. -/
lemma read_null_xor (type : DataType) (slot n : ℕ) : type.read Word.null slot ^^^ n = n := by
  rw [(DataType.read_eq_zero_iff type Word.null slot).2 fun i _ _ => Word.bit_null i, Nat.zero_xor]

/-- An enum is emitted as its enumerant, when there is one. -/
lemma enum_right (schema : EnumSchema) (parameters : List (Id × ScopeBranding)) (n depth : ℕ) :
    Right ctx scope (.enumerant schema.node.id n)
        (generateFieldDefaultValue ctx depth scope (.mk 0 (.enum schema parameters)) (.enum n) none) ↔
      ∃ info, ctx.info.lookup schema.node.id = some (.enum info) ∧ n < info.enumerants.length := by
  have hrun : generateFieldDefaultValue ctx depth scope (.mk 0 (.enum schema parameters)) (.enum n) none = (do
      let info ← findEnum ctx schema.node.id
      let enumerant ← Prog.unwrap (info.enumerants[n]?)
      pure (Emitted.enumerant (info.typeInfo.resolvePath scope) enumerant)) none := rfl
  rw [hrun]
  constructor
  · rintro ⟨e, l, hok, -, hdenotes⟩
    obtain ⟨info, l₁, -, hrest⟩ := Prog.bind_eq_ok.1 hok
    obtain ⟨enumerant, l₂, -, hpure⟩ := Prog.bind_eq_ok.1 hrest
    cases hpure
    obtain ⟨info, hlookup, -, hget⟩ := hdenotes id
    exact ⟨info, hlookup, (List.getElem?_eq_some_iff.1 hget).1⟩
  · rintro ⟨info, hlookup, hlt⟩
    have hfind : findEnum ctx schema.node.id none = .ok info none := by
      rw [findEnum, hlookup]
      rfl
    rw [Prog.bind_of_ok hfind, List.getElem?_eq_getElem hlt, Prog.unwrap_some, Prog.pure_bind_eq]
    have henum : (Emitted.enumerant (info.typeInfo.resolvePath scope) info.enumerants[n]).Denotes ctx scope
        (.enumerant schema.node.id n) := ⟨info, hlookup, rfl, List.getElem?_eq_getElem hlt⟩
    exact right_of_denotes id henum

lemma literal_right (p : Primitive) (n : ℕ) {limiter : Limiter} :
    Right ctx scope (.bits p n) (.ok (.literal p n) limiter) := by
  have hliteral : (Emitted.literal p n).Denotes ctx scope (.bits p n) :=
    ⟨rfl, fun type slot => read_null_xor type slot n⟩
  exact right_of_denotes id hliteral

/-- Text is emitted with its NUL, unless there is nothing but the NUL. -/
lemma text_right (t : TextReader) (depth : ℕ) :
    Right ctx scope (.text t) (generateFieldDefaultValue ctx depth scope (.mk 0 .text) (.text t) none) := by
  show Right ctx scope (.text t) ((match Option.filter (fun t : TextReader => !t.isEmpty) (some t) with
    | some text => pure (.text text.asBytesWithNul)
    | .none => pure .none : Prog Stop Limiter Emitted) none)
  by_cases hempty : t.isEmpty = true
  · rw [Option.filter_some_neg (by rw [hempty]; rfl)]
    have hm : (Meaning.text t).IsEmpty := hempty
    exact right_none hm
  · rw [Option.filter_some_pos (by rw [Bool.eq_false_iff.2 hempty]; rfl)]
    have htext : (Emitted.text t.asBytesWithNul).Denotes ctx scope (.text t) := t.fromSlice_asBytesWithNul
    have hm : ¬ (Meaning.text t).IsEmpty := hempty
    exact right_of_denotes hm htext

lemma data_right (d : DataReader) (depth : ℕ) :
    Right ctx scope (.data d) (generateFieldDefaultValue ctx depth scope (.mk 0 .data) (.data d) none) := by
  show Right ctx scope (.data d) ((match Option.filter (fun d : DataReader => !d.isEmpty) (some d) with
    | some data => pure (.data data.bytes)
    | .none => pure .none : Prog Stop Limiter Emitted) none)
  by_cases hempty : d.isEmpty = true
  · rw [Option.filter_some_neg (by rw [hempty]; rfl)]
    have hm : (Meaning.data d).IsEmpty := hempty
    exact right_none hm
  · rw [Option.filter_some_pos (by rw [Bool.eq_false_iff.2 hempty]; rfl)]
    have hdata : (Emitted.data d.bytes).Denotes ctx scope (.data d) := d.fromSlice_bytes
    have hm : ¬ (Meaning.data d).IsEmpty := hempty
    exact right_of_denotes hm hdata

/-- **What the generator handles is right**, and besides it only lists of structs that look like their tags. -/
theorem generateFieldDefaultValue_right {type : Ty} {value : DefaultValue} (h : IsDefault type value m) :
    ∀ᶠ depth in Filter.atTop,
      (Handled ctx type m → Right ctx scope m (generateFieldDefaultValue ctx depth scope type value none)) ∧
      (Right ctx scope m (generateFieldDefaultValue ctx depth scope type value none) →
        Handled ctx type m ∨ ∃ v, m = .ptr v ∧ LooksTagged v) := by
  cases h with
  | void =>
    exact Filter.Eventually.of_forall fun depth => ⟨fun _ => literal_right .void 0, fun _ => Or.inl trivial⟩
  | prim p n hp =>
    refine Filter.Eventually.of_forall fun depth => ⟨fun _ => ?_, fun _ => Or.inl trivial⟩
    have hrun : generateFieldDefaultValue ctx depth scope (.mk 0 (.prim p)) (.prim p n) none =
        .ok (.literal p n) none := by
      cases p with
      | void => exact absurd rfl hp
      | _ => rfl
    rw [hrun]
    exact literal_right p n
  | enum schema parameters n =>
    refine Filter.Eventually.of_forall fun depth => ?_
    have hiff := @enum_right ctx scope schema parameters n depth
    exact ⟨hiff.2, fun hright => Or.inl (hiff.1 hright)⟩
  | text t => exact Filter.Eventually.of_forall fun depth => ⟨fun _ => text_right t depth, fun _ => Or.inl trivial⟩
  | data d => exact Filter.Eventually.of_forall fun depth => ⟨fun _ => data_right d depth, fun _ => Or.inl trivial⟩
  | @list n kind p v hkept hlist =>
    -- the assertion compares with the element size of the type
    have hcheck : ∀ list : ListReader, (expectedElementSize (.mk (n + 1) kind) list.elementSize = some list.elementSize ∧
        (do
          let expected ← Prog.unwrap (expectedElementSize (.mk (n + 1) kind) list.elementSize)
          Prog.assert (list.elementSize = expected) : Prog Stop Limiter Unit) = pure ()) ∨
        (¬ expectedElementSize (.mk (n + 1) kind) list.elementSize = some list.elementSize ∧
        (do
          let expected ← Prog.unwrap (expectedElementSize (.mk (n + 1) kind) list.elementSize)
          Prog.assert (list.elementSize = expected) : Prog Stop Limiter Unit) = Prog.halt .panic) := by
      intro list
      rcases hexpected : expectedElementSize (.mk (n + 1) kind) list.elementSize with _ | expected
      · exact Or.inr ⟨nofun, rfl⟩
      · by_cases heq : list.elementSize = expected
        · exact Or.inl ⟨congrArg some heq.symm, if_pos heq⟩
        · exact Or.inr ⟨fun h => heq (Option.some.inj h).symm, if_neg heq⟩
    refine (@emitList_right ctx scope p v _ (fun size => expectedElementSize (.mk (n + 1) kind) size = some size)
      hcheck hkept hlist).mono fun depth hspec => ⟨hspec.1, fun hright => ?_⟩
    exact (hspec.2 hright).imp id fun htagged => ⟨v, rfl, htagged⟩
  | @struct schema parameters p v hkept hstruct =>
    have hcheck : ∀ s : StructReader, (structSize schema = s.size ∧
        (Prog.assert (structSize schema = s.size) : Prog Stop Limiter Unit) = pure ()) ∨
        (¬ structSize schema = s.size ∧
        (Prog.assert (structSize schema = s.size) : Prog Stop Limiter Unit) = Prog.halt .panic) := by
      intro s
      by_cases heq : structSize schema = s.size
      · exact Or.inl ⟨heq, if_pos heq⟩
      · exact Or.inr ⟨heq, if_neg heq⟩
    refine (@emitStruct_right ctx scope p v _ (fun size => structSize schema = size) hcheck hkept hstruct).mono
      fun depth hspec => ⟨fun hhandled => ?_, fun hright => Or.inl ?_⟩
    · exact hspec.2 (hhandled.imp id fun hshape => ⟨_, hshape, rfl⟩)
    · exact (hspec.1 hright).imp id fun ⟨_, hshape, heq⟩ => hshape.trans (by rw [heq])
  | anyPointer hkept =>
    refine Filter.Eventually.of_forall fun depth => ?_
    have hiff := @anyPointer_right ctx scope _ _ hkept depth
    exact ⟨hiff.2, fun hright => Or.inl (hiff.1 hright)⟩
  | @anyStruct p v hkept hstruct =>
    obtain ⟨size, hshape⟩ := id hstruct
    refine (@emitStruct_right ctx scope p v (fun _ => pure ()) (fun _ => True) (fun _ => Or.inl ⟨trivial, rfl⟩) hkept
      hstruct).mono fun depth hspec => ⟨fun _ => ?_, fun _ => Or.inl trivial⟩
    exact hspec.2 (Or.inr ⟨size, hshape, trivial⟩)
  | @anyList p v hkept hlist =>
    refine (@emitList_right ctx scope p v (fun _ => pure ()) (fun _ => True) (fun _ => Or.inl ⟨trivial, rfl⟩) hkept
      hlist).mono fun depth hspec => ⟨fun hhandled => ?_, fun hright => ?_⟩
    · exact hspec.1 (hhandled.imp id fun ⟨size, count, hshape, huntagged⟩ => ⟨size, count, hshape, trivial, huntagged⟩)
    · refine (hspec.2 hright).imp (Or.imp id ?_) fun htagged => ⟨v, rfl, htagged⟩
      exact fun ⟨size, count, hshape, _, huntagged⟩ => ⟨size, count, hshape, huntagged⟩

end Right

/-! ### A list of one byte -/

/-- The pointer to the list of one zero byte. -/
def oneBytePtr : PtrReader := ⟨0, ⟨.unchecked oneByteWords.data⟩, 64⟩

lemma kept_oneByte : Kept oneBytePtr (zeros oneByteList) := by
  constructor
  · refine ⟨oneByteWords, rfl, by decide, ?_, by decide, fun _ => ⟨63, rfl, fun _ => trivial⟩⟩
    refine @reads_zeros oneByteList oneByteWords (by decide) ⟨by decide, by decide, by decide, by decide⟩
      (Or.inr ⟨by decide, by decide, nofun⟩) fun k hk => ?_
    have hone : k < 1 := hk
    obtain rfl : k = 0 := by omega
    rfl
  · rw [words_zeros]
    decide

/-- The default of a field with a list of bytes is emitted. -/
theorem generateFieldDefaultValue_right_bytes : ∀ᶠ depth in Filter.atTop,
    Right ⟨⟨[], List.nodup_nil⟩, []⟩ ⟨⟨0, []⟩, []⟩ (.ptr (zeros oneByteList))
      (generateFieldDefaultValue ⟨⟨[], List.nodup_nil⟩, []⟩ depth ⟨⟨0, []⟩, []⟩ (.mk 1 (.prim .uint8))
        (.list oneBytePtr) none) := by
  have hdefault : IsDefault (.mk 1 (.prim .uint8)) (.list oneBytePtr) (.ptr (zeros oneByteList)) :=
    .list 0 _ kept_oneByte (Or.inr ⟨_, _, rfl⟩)
  refine (generateFieldDefaultValue_right hdefault).mono fun depth hspec => hspec.1 (Or.inr ?_)
  exact ⟨_, _, rfl, rfl, trivial⟩

/-- **The default of an `AnyPointer` is lost**: nothing is emitted for a list of one byte. -/
theorem not_right_anyPointer :
    IsDefault (.mk 0 .anyPointer) (.anyPointer oneBytePtr) (.ptr (zeros oneByteList)) ∧ ∀ ctx scope depth,
      ¬ Right ctx scope (.ptr (zeros oneByteList))
        (generateFieldDefaultValue ctx depth scope (.mk 0 .anyPointer) (.anyPointer oneBytePtr) none) := by
  refine ⟨.anyPointer kept_oneByte, fun ctx scope depth hright => ?_⟩
  have hempty := ((anyPointer_right kept_oneByte depth).1 hright).2
  exact absurd ((isEmptyValue_list rfl).1 hempty) (by decide)

end Recapn.Codegen.Defaults
