/-
# Nodes that are kept

The loader keeps its own copy of every node, in a buffer that is as long as the node and the
pointer to it.  The copy is read without checks.

The copy is at least of the size that the schema of schemas has for a node, while the length of the
buffer comes from the size that the node has in its message.
-/
import Recapn.Codegen.Schema
import Recapn.Ptr.Sources

namespace Recapn.Codegen.Loading

open Recapn.Lib Recapn.Ptr

/-- `Node::SIZE`. -/
def nodeSize : StructSize := ⟨5, 6, by decide, by decide⟩

/-- What loading a node fails with: an error of its message, or a `SchemaError`. -/
inductive LoadError where
  | recapn (e : Ptr.Error)
  | nodeTooLarge
  | duplicateNode (id : Id)

/-- An error of a message is an error of the loader. -/
def orRecapn {α : Type} (x : ReadM α) : Prog LoadError Limiter α := fun limiter =>
  match x limiter with
  | .ok v l => .ok v l
  | .error e l => .error (.recapn e) l
  | .halt h => .halt h

/-- `UncheckedNode`: the words of its box. -/
structure UncheckedNode where
  data : ℕ → Word
  len : ℕ

namespace UncheckedNode

/-- The length of the box for a node, with the pointer to it. -/
def boxLen (words : UInt64) : Option AllocLen :=
  if words.toNat + 1 < 2 ^ 64 ∧ words.toNat + 1 < 2 ^ 32 then AllocLen.new (words.toNat + 1) else none

/-- `UncheckedNode::new`. -/
def new (depth : ℕ) (node : StructReader) : Prog LoadError Limiter UncheckedNode := do
  let size ← orRecapn (node.totalSize depth)
  if size.caps ≠ 0 then Prog.throw (.recapn .capabilityNotAllowed)
  else
    match boxLen size.words with
    | none => Prog.throw .nodeTooLarge
    | some len => do
      let arena ← orRecapn (setScratch len fun root =>
        root.trySetStruct clearNoCap (emptyTable returnErrors) depth depth node (.minimum nodeSize))
      pure ⟨arena.memory 0, len.get⟩

/-- `UncheckedNode::get`. -/
def get {ε : Type} (self : UncheckedNode) : Prog ε Limiter StructReader :=
  (PtrReader.newUnchecked self.data).readAsStruct

end UncheckedNode

/-- `SchemaLoader`, with the boxes of its nodes. -/
structure SchemaLoader where
  nodes : Id → Option UncheckedNode

/-- `Node::id`. -/
def Node.id {ε σ : Type} (node : StructReader) : Prog ε σ Id := node.dataView.dataField .u64 0

namespace SchemaLoader

/-- `SchemaLoader::new`. -/
def new : SchemaLoader := ⟨fun _ => none⟩

/-- `SchemaLoader::load`. -/
def load (self : SchemaLoader) (depth : ℕ) (node : StructReader) : Prog LoadError Limiter SchemaLoader := do
  let id ← Node.id node
  if (self.nodes id).isSome then Prog.throw (.duplicateNode id)
  else do
    let unchecked ← UncheckedNode.new depth node
    pure ⟨Function.update self.nodes id (some unchecked)⟩

/-- `SchemaLoader::get`. -/
def get {ε : Type} (self : SchemaLoader) (id : Id) : Prog ε Limiter (Option StructReader) :=
  match self.nodes id with
  | none => pure none
  | some node => do
    let reader ← node.get
    pure (some reader)

end SchemaLoader

/-! ## What is kept -/

section Load

variable {α : Type} {node : StructReader} {block : Segment}
  {vs : ℕ → Ptr.Value} {limiter l : Limiter} {len : AllocLen} {stored : UncheckedNode}

lemma orRecapn_of_ok {x : ReadM α} {v : α} (h : x limiter = .ok v l) : orRecapn x limiter = .ok v l := by
  rw [orRecapn, h]

lemma orRecapn_of_error {x : ReadM α} {e : Ptr.Error} (h : x limiter = .error e l) :
    orRecapn x limiter = .error (.recapn e) l := by
  rw [orRecapn, h]

/-- The node has the sections that the schema of schemas has for it, and there is a segment for it and
the pointer to it. -/
def Fits (node : StructReader) (block : Segment) (vs : ℕ → Ptr.Value) : Prop :=
  nodeSize.data ≤ node.size.data ∧ nodeSize.ptrs ≤ node.size.ptrs ∧ (node.value block vs).words + 1 < 2 ^ 29

/-- The box holds the node. -/
structure UncheckedNode.Holds (stored : UncheckedNode) (node : StructReader) (block : Segment)
    (vs : ℕ → Ptr.Value) : Prop where
  len_eq : stored.len = (node.value block vs).words + 1
  reads : ReadsUnchecked stored.data 1 stored.len 0 (node.value block vs)

lemma boxLen_ofNat {words : ℕ} (h : words < 2 ^ 29) :
    UncheckedNode.boxLen (MessageSize.ofNat words 0).words = AllocLen.new (words + 1) := by
  have hwords : (MessageSize.ofNat words 0).words.toNat = words := by
    show (UInt64.ofNat words).toNat = words
    rw [UInt64.toNat_ofNat', Nat.mod_eq_of_lt (by omega)]
  rw [UncheckedNode.boxLen, hwords]
  exact if_pos ⟨by omega, by omega⟩

/-- The size of the copy is the larger one of both. -/
lemma words_stored (hnode : node.IsReadable block vs) :
    (node.valueAs block vs (node.size.max nodeSize)).words + node.size.total =
      (node.value block vs).words + (node.size.max nodeSize).total := by
  have hle : node.ptrsLen ≤ (node.size.max nodeSize).ptrs := by
    rw [← hnode.size_ptrs]
    exact Nat.le_max_left _ _
  rw [StructReader.value, StructReader.words_valueAs hle, StructReader.words_valueAs (Nat.le_of_eq hnode.size_ptrs.symm)]
  omega

lemma max_total_le_iff {size other : StructSize} :
    (size.max other).total ≤ size.total ↔ other.data ≤ size.data ∧ other.ptrs ≤ size.ptrs := by
  show max size.data other.data + max size.ptrs other.ptrs ≤ size.data + size.ptrs ↔ _
  omega

lemma max_eq_left_of_le {size other : StructSize} (hdata : other.data ≤ size.data)
    (hptrs : other.ptrs ≤ size.ptrs) : size.max other = size :=
  StructSize.ext (Nat.max_eq_left hdata) (Nat.max_eq_left hptrs)

/-- The copy into a box. -/
def UncheckedNode.fill (depth : ℕ) (node : StructReader) (len : AllocLen) : Prog Ptr.Error Limiter Arena :=
  setScratch len fun root =>
    root.trySetStruct clearNoCap (emptyTable returnErrors) depth depth node (.minimum nodeSize)

lemma UncheckedNode.new_of_tooLarge {depth words : ℕ}
    (hsize : node.totalSize depth limiter = .ok (.ofNat words 0) l) (hwords : words < 2 ^ 29)
    (hlen : AllocLen.new (words + 1) = none) :
    UncheckedNode.new depth node limiter = .error .nodeTooLarge l := by
  have hcaps : ¬ (MessageSize.ofNat words 0).caps ≠ 0 := fun h => h rfl
  rw [UncheckedNode.new, Prog.bind_of_ok (orRecapn_of_ok hsize), if_neg hcaps, boxLen_ofNat hwords, hlen]
  rfl

lemma UncheckedNode.new_of_len {depth words : ℕ}
    (hsize : node.totalSize depth limiter = .ok (.ofNat words 0) l) (hwords : words < 2 ^ 29)
    (hlen : AllocLen.new (words + 1) = some len) :
    UncheckedNode.new depth node limiter =
      (orRecapn (UncheckedNode.fill depth node len) >>= fun arena => pure ⟨arena.memory 0, len.get⟩) l := by
  have hcaps : ¬ (MessageSize.ofNat words 0).caps ≠ 0 := fun h => h rfl
  rw [UncheckedNode.new, Prog.bind_of_ok (orRecapn_of_ok hsize), if_neg hcaps, boxLen_ofNat hwords, hlen]
  rfl

lemma UncheckedNode.eventually_fill (hnode : node.IsReadable block vs) (len : AllocLen) :
    ∀ᶠ depth in Filter.atTop, ∀ limiter, FillsScratch len (node.valueAs block vs (node.size.max nodeSize))
      limiter (UncheckedNode.fill depth node len limiter) := by
  have hle : node.ptrsLen ≤ (node.size.max nodeSize).ptrs := by
    rw [← hnode.size_ptrs]
    exact Nat.le_max_left _ _
  exact @StructReader.IsReadable.fills block node vs (.minimum nodeSize) (node.size.max nodeSize) hnode rfl rfl hle
    len

/-- **A node is kept just when it fits**, unless a read limit is exceeded. -/
theorem UncheckedNode.new_spec (hnode : node.IsReadable block vs)
    (hwords : (node.value block vs).words < 2 ^ 29) (limiter : Limiter) :
    ∀ᶠ depth in Filter.atTop,
      (∀ stored l, UncheckedNode.new depth node limiter = .ok stored l →
        Fits node block vs ∧ stored.Holds node block vs) ∧
      (Fits node block vs → (∃ stored l, UncheckedNode.new depth node limiter = .ok stored l) ∨
        limiter ≠ none ∧ ∃ l, UncheckedNode.new depth node limiter = .error (.recapn .readLimitExceeded) l) := by
  have htotal := words_stored hnode
  rcases hlen : AllocLen.new ((node.value block vs).words + 1) with _ | len
  · refine (Filter.eventually_gt_atTop node.nestingLimit).mono fun depth hdepth => ?_
    have hge : 2 ^ 29 ≤ (node.value block vs).words + 1 :=
      (AllocLen.new_eq_none.1 hlen).resolve_left (Nat.succ_ne_zero _)
    refine ⟨fun stored l hrun => ?_, fun hfits => absurd hfits.2.2 (Nat.not_lt.2 hge)⟩
    rcases hnode.counts hdepth limiter with ⟨l', hsize, -⟩ | ⟨-, l', hsize⟩
    · cases (UncheckedNode.new_of_tooLarge hsize hwords hlen).symm.trans hrun
    · cases (Prog.bind_of_error (orRecapn_of_error hsize)).symm.trans hrun
  · have hget : len.get = (node.value block vs).words + 1 := AllocLen.new_eq_some.1 hlen
    filter_upwards [Filter.eventually_gt_atTop node.nestingLimit,
      UncheckedNode.eventually_fill hnode len] with depth hdepth hfill
    rcases hnode.counts hdepth limiter with ⟨l, hsize, hnone⟩ | ⟨hlimiter, l, hsize⟩
    · rw [UncheckedNode.new_of_len hsize hwords hlen]
      have hfilled := hfill l
      rcases hrun : UncheckedNode.fill depth node len l with ⟨arena, l'⟩ | ⟨e, l'⟩ | r
      · obtain ⟨hle, hholds⟩ := hfilled.ok arena l' hrun
        have hreads := hholds.reads
        have hsections := max_total_le_iff.1 (show (node.size.max nodeSize).total ≤ node.size.total by omega)
        have hlt := len.get_lt
        rw [max_eq_left_of_le hsections.1 hsections.2] at hreads
        rw [Prog.bind_of_ok (orRecapn_of_ok hrun)]
        refine ⟨?_, fun _ => Or.inl ⟨_, l', rfl⟩⟩
        rintro stored l'' ⟨⟩
        refine ⟨⟨hsections.1, hsections.2, by omega⟩, hget, ?_⟩
        show ReadsUnchecked (arena.memory 0) 1 len.get 0 _
        rw [hget]
        exact hreads
      · rw [Prog.bind_of_error (orRecapn_of_error hrun)]
        refine ⟨nofun, fun hfits => Or.inr ?_⟩
        have hsections := max_total_le_iff.2 ⟨hfits.1, hfits.2.1⟩
        obtain ⟨arena, l'', hok⟩ | ⟨hlimiter, l'', herror⟩ := hfilled.of_room (by omega)
        · cases hrun.symm.trans hok
        · cases hrun.symm.trans herror
          exact ⟨mt hnone hlimiter, l', rfl⟩
      · refine ⟨fun stored l' hok => ?_, fun hfits => ?_⟩
        · rw [Prog.bind_apply, orRecapn, hrun] at hok
          cases hok
        · have hsections := max_total_le_iff.2 ⟨hfits.1, hfits.2.1⟩
          obtain ⟨arena, l'', hok⟩ | ⟨-, l'', herror⟩ := hfilled.of_room (by omega)
          · cases hrun.symm.trans hok
          · cases hrun.symm.trans herror
    · have hrun : UncheckedNode.new depth node limiter = .error (.recapn .readLimitExceeded) l :=
        Prog.bind_of_error (orRecapn_of_error hsize)
      rw [hrun]
      exact ⟨nofun, fun _ => Or.inr ⟨hlimiter, l, rfl⟩⟩

/-! ### The loader -/

/-- The node was loaded: the loader has it under its id, and it reads as the one that was given, with
all of it in its box. -/
def SchemaLoader.Loads (id : Id) (node : StructReader) (block : Segment) (vs : ℕ → Ptr.Value)
    (o : Outcome LoadError Limiter SchemaLoader) : Prop :=
  ∃ loader l, o = .ok loader l ∧ ∃ stored, loader.nodes id = some stored ∧
    ∃ reader, (loader.get id : Prog LoadError Limiter _) none = .ok (some reader) none ∧
      reader.Finds stored.data stored.len node block vs

/-- A read limit was exceeded while loading. -/
def SchemaLoader.Exceeds (o : Outcome LoadError Limiter SchemaLoader) : Prop :=
  ∃ l, o = .error (.recapn .readLimitExceeded) l

/-- A box that holds a node is read as the node. -/
lemma UncheckedNode.Holds.get {ε : Type} (h : stored.Holds node block vs) (hnode : node.IsReadable block vs)
    (hwords : (node.value block vs).words < 2 ^ 29) :
    ∃ reader, (stored.get : Prog ε Limiter StructReader) none = .ok reader none ∧
      reader.Finds stored.data stored.len node block vs := by
  have hdata : node.dataLen ≤ node.size.data * 8 := by
    rw [hnode.size_data]
    omega
  exact readAsStruct_finds h.reads hdata (Nat.le_of_eq hnode.size_ptrs.symm) hwords

/-- A node with a new id is kept under it. -/
lemma SchemaLoader.load_of_fresh {loader : SchemaLoader} {id : Id} {depth : ℕ}
    (hid : (Node.id node : Prog LoadError Limiter Id) = pure id) (hfresh : loader.nodes id = none) :
    loader.load depth node = UncheckedNode.new depth node >>= fun unchecked =>
      pure ⟨Function.update loader.nodes id (some unchecked)⟩ := by
  have hnone : ¬ (loader.nodes id).isSome = true := by
    rw [hfresh]
    exact Bool.false_ne_true
  rw [SchemaLoader.load, hid, Prog.pure_bind_eq, if_neg hnone]

/-- **Loading a node keeps it just when it fits**: it has the sections that the schema of schemas has
for it, and there is a segment for it and the pointer to it.  A read limit may be exceeded. -/
theorem SchemaLoader.load_loads_iff (hnode : node.IsReadable block vs)
    (hwords : (node.value block vs).words < 2 ^ 29) (loader : SchemaLoader) (limiter : Limiter) {id : Id}
    (hid : (Node.id node : Prog LoadError Limiter Id) = pure id) (hfresh : loader.nodes id = none) :
    ∀ᶠ depth in Filter.atTop,
      (SchemaLoader.Loads id node block vs (loader.load depth node limiter) ↔
        Fits node block vs ∧ ¬ SchemaLoader.Exceeds (loader.load depth node limiter)) ∧
      (limiter = none → Fits node block vs → ¬ SchemaLoader.Exceeds (loader.load depth node limiter)) := by
  refine (UncheckedNode.new_spec hnode hwords limiter).mono fun depth ⟨hok, hfits⟩ => ?_
  rw [SchemaLoader.load_of_fresh hid hfresh]
  rcases hrun : UncheckedNode.new depth node limiter with ⟨stored, l⟩ | ⟨e, l⟩ | r
  · obtain ⟨hfit, hholds⟩ := hok stored l hrun
    obtain ⟨reader, hget, hfinds⟩ := hholds.get hnode hwords
    rw [Prog.bind_of_ok hrun]
    refine ⟨⟨fun _ => ⟨hfit, nofun⟩, fun _ => ⟨_, l, rfl, stored, Function.update_self .., reader, ?_, hfinds⟩⟩,
      fun _ _ => nofun⟩
    rw [SchemaLoader.get]
    dsimp only
    rw [Function.update_self]
    exact (Prog.bind_of_ok hget).trans rfl
  · rw [Prog.bind_of_error hrun]
    rw [hrun] at hfits
    -- a node that fits is kept, or the limit is exceeded
    have hlimit : Fits node block vs → limiter ≠ none ∧ e = .recapn .readLimitExceeded := by
      intro hfit
      obtain ⟨stored, l', heq⟩ | ⟨hlimiter, l', heq⟩ := hfits hfit
      · cases heq
      · cases heq
        exact ⟨hlimiter, rfl⟩
    refine ⟨⟨fun ⟨_, _, heq, _⟩ => (nomatch heq), fun ⟨hfit, hnot⟩ => absurd ⟨l, ?_⟩ hnot⟩,
      fun hnone hfit => absurd hnone (hlimit hfit).1⟩
    rw [(hlimit hfit).2]
  · rw [Prog.bind_of_halt hrun]
    rw [hrun] at hfits
    have hnot : ¬ Fits node block vs := by
      intro hfit
      obtain ⟨stored, l', heq⟩ | ⟨-, l', heq⟩ := hfits hfit <;> cases heq
    exact ⟨⟨fun ⟨_, _, heq, _⟩ => (nomatch heq), fun h => absurd h.1 hnot⟩, fun _ hfit => absurd hfit hnot⟩

lemma SchemaLoader.Loads.new {loader : SchemaLoader} {id : Id} {depth : ℕ}
    (hid : (Node.id node : Prog LoadError Limiter Id) = pure id) (hfresh : loader.nodes id = none)
    (h : SchemaLoader.Loads id node block vs (loader.load depth node limiter)) :
    ∃ stored l, UncheckedNode.new depth node limiter = .ok stored l := by
  obtain ⟨loader', l, hrun, -⟩ := h
  rw [SchemaLoader.load_of_fresh hid hfresh] at hrun
  obtain ⟨stored, l', hnew, -⟩ := Prog.bind_eq_ok.1 hrun
  exact ⟨stored, l', hnew⟩

end Load

/-! ### Blank nodes -/

/-- A segment of nulls, in which a node can stand. -/
def blankSegment : Segment := ⟨fun _ => Word.null, ⟨11, by decide⟩⟩

def blankArena : ReadArena := fun id => if id = 0 then some blankSegment else none

/-- A node of some size with nothing in it. -/
def blankNode (size : StructSize) : StructReader :=
  ⟨0, size.data, .inSegment blankArena 0 blankSegment, 64, size.data * 8, size.ptrs⟩

lemma readable_blankNode {size : StructSize} (h : size.total ≤ 11) :
    (blankNode size).IsReadable blankSegment fun _ => .null := by
  refine Or.inl ⟨blankArena, 0, ?_⟩
  refine @StructReader.Readable.mk _ _ _ _ _ ⟨?_, ?_, size.ptrs_lt, fun _ _ => .null rfl rfl, fun _ _ => rfl⟩
    fun _ _ => trivial
  · have hle : size.data + size.ptrs ≤ 11 := h
    refine ⟨rfl, rfl, ?_, hle⟩
    show 0 + (size.data * 8 + 7) / 8 ≤ 11
    omega
  · have hlt := size.data_lt
    show size.data * 8 ≤ 8 * (2 ^ 16 - 1)
    omega

lemma words_blankNode {size : StructSize} (h : size.total ≤ 11) :
    ((blankNode size).value blankSegment fun _ => .null).words = size.total := by
  have hnode := readable_blankNode h
  have hsize : (blankNode size).size = size := by
    refine StructSize.ext (hnode.size_data.trans ?_) hnode.size_ptrs
    show (size.data * 8 + 7) / 8 = size.data
    omega
  rw [StructReader.value, StructReader.words_valueAs (Nat.le_of_eq hnode.size_ptrs.symm), hsize]
  exact congrArg _ (Finset.sum_eq_zero fun k _ => rfl)

/-- A node with the compiled-in sections is kept. -/
theorem SchemaLoader.load_loads_iff_blank :
    (blankNode nodeSize).IsReadable blankSegment (fun _ => .null) ∧
      ((blankNode nodeSize).value blankSegment fun _ => .null).words < 2 ^ 29 ∧
      (Node.id (blankNode nodeSize) : Prog LoadError Limiter Id) = pure 0 ∧
      SchemaLoader.new.nodes 0 = none ∧
      ∀ᶠ depth in Filter.atTop,
        SchemaLoader.Loads 0 (blankNode nodeSize) blankSegment (fun _ => .null)
          (SchemaLoader.new.load depth (blankNode nodeSize) none) := by
  have hnode : (blankNode nodeSize).IsReadable blankSegment fun _ => .null :=
    readable_blankNode (by decide)
  have hwords : ((blankNode nodeSize).value blankSegment fun _ => .null).words = 11 :=
    words_blankNode (by decide)
  have hid : (Node.id (blankNode nodeSize) : Prog LoadError Limiter Id) = pure 0 := rfl
  have hfits : Fits (blankNode nodeSize) blankSegment fun _ => .null :=
    ⟨by decide, by decide, by rw [hwords]; decide⟩
  refine ⟨hnode, by rw [hwords]; decide, hid, rfl, ?_⟩
  exact (SchemaLoader.load_loads_iff hnode (by rw [hwords]; decide) SchemaLoader.new none hid rfl).mono
    fun depth h => h.1.2 ⟨hfits, h.2 rfl hfits⟩

/-- The size of a node before it had parameters. -/
def oldNodeSize : StructSize := ⟨5, 5, by decide, by decide⟩

/-- **A node with fewer pointers than the compiled-in size is not kept**, although it can be read and
has no capabilities, and there is a segment for it. -/
theorem SchemaLoader.not_loads_oldNode :
    (blankNode oldNodeSize).IsReadable blankSegment (fun _ => .null) ∧
      ((blankNode oldNodeSize).value blankSegment fun _ => .null).words < 2 ^ 29 ∧
      (Node.id (blankNode oldNodeSize) : Prog LoadError Limiter Id) = pure 0 ∧
      SchemaLoader.new.nodes 0 = none ∧
      ∀ᶠ depth in Filter.atTop,
        ¬ SchemaLoader.Loads 0 (blankNode oldNodeSize) blankSegment (fun _ => .null)
          (SchemaLoader.new.load depth (blankNode oldNodeSize) none) := by
  have hnode : (blankNode oldNodeSize).IsReadable blankSegment fun _ => .null :=
    readable_blankNode (by decide)
  have hwords : ((blankNode oldNodeSize).value blankSegment fun _ => .null).words = 10 :=
    words_blankNode (by decide)
  have hid : (Node.id (blankNode oldNodeSize) : Prog LoadError Limiter Id) = pure 0 := rfl
  refine ⟨hnode, by rw [hwords]; decide, hid, rfl, ?_⟩
  refine (UncheckedNode.new_spec hnode (by rw [hwords]; decide) none).mono fun depth hspec hloads => ?_
  obtain ⟨stored, l, hnew⟩ := hloads.new hid rfl
  exact absurd (hspec.1 stored l hnew).1.2.1 (by decide)

end Recapn.Codegen.Loading
