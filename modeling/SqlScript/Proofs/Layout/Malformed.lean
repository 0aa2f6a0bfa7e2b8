import SqlScript.Proofs.Layout.Fault
import SqlScript.Proofs.Node.Counterpart

namespace SqlScript

/-!
# Malformed nodes

Nodes that do not come from a script can have blocks with nothing in them, at whatever depth. There
is no other reason why nodes are not laid out, and of several such blocks the first one is told, in
the order in which blocks are opened.

* `Node.IsFirstEmpty` — the first block with nothing in it, told by the list of all blocks;
* `Node.firstEmptyBlock?_eq_some_iff` — the search for one through blocks and the nodes in them
  finds this one;
* `Node.firstEmpty_layOut` — nodes are laid out unless there is such a block, which is told.
-/

namespace Node

/-- Whether the block at the place is the first one of the nodes, at all depths, with nothing in
    it. -/
def IsFirstEmpty (ns : List Node) (span : Span) : Prop :=
  ∃ before after, allBlocks ns = before ++ ([], span) :: after ∧ ∀ b ∈ before, b.1 ≠ []

/-! ### The search for an empty block -/

mutual

/-- The first empty block of a node is the first one of its blocks with nothing in it. -/
theorem emptyBlock?_eq_find? : (n : Node) →
    n.emptyBlock? = (n.blocks.find? (·.1.isEmpty)).map fun b => .emptyBlock b.2.start
  | leaf _ => rfl
  | block interior span => by
    rw [emptyBlock?, blocks, List.find?_cons]
    cases hempty : interior.isEmpty with
    | true => rfl
    | false => exact firstEmptyBlock?_eq_find? interior

/-- The search goes through the blocks in the order in which they are opened. -/
theorem firstEmptyBlock?_eq_find? : (ns : List Node) →
    firstEmptyBlock? ns
      = ((allBlocks ns).find? (·.1.isEmpty)).map fun b => .emptyBlock b.2.start
  | [] => rfl
  | n :: rest => by
    rw [firstEmptyBlock?, allBlocks, List.find?_append, Option.map_or, emptyBlock?_eq_find? n,
      firstEmptyBlock?_eq_find? rest]

end

/-- What is found is the first block with nothing in it. -/
theorem firstEmptyBlock?_eq_some_iff {ns : List Node} {e : StructureError} :
    firstEmptyBlock? ns = some e ↔ ∃ span, IsFirstEmpty ns span ∧ e = .emptyBlock span.start := by
  rw [firstEmptyBlock?_eq_find?, Option.map_eq_some_iff]
  constructor
  · rintro ⟨⟨interior, span⟩, hfind, rfl⟩
    obtain ⟨hempty, before, after, hblocks, hbefore⟩ := List.find?_eq_some_iff_append.mp hfind
    obtain rfl : interior = [] := List.isEmpty_iff.mp hempty
    exact ⟨span, ⟨before, after, hblocks, fun b hb => by simpa using hbefore b hb⟩, rfl⟩
  · rintro ⟨span, ⟨before, after, hblocks, hbefore⟩, rfl⟩
    refine ⟨([], span), List.find?_eq_some_iff_append.mpr ⟨rfl, before, after, hblocks, ?_⟩, rfl⟩
    intro b hb
    simpa using hbefore b hb

/-- Some block is found where there is one. -/
theorem isSome_firstEmptyBlock?_iff {ns : List Node} :
    (firstEmptyBlock? ns).isSome = true ↔ ∃ b ∈ allBlocks ns, b.1 = [] := by
  rw [firstEmptyBlock?_eq_find?, Option.isSome_map, List.find?_isSome]
  simp only [List.isEmpty_iff]

/-! ### What is told -/

/-- Laying out fails exactly when there is an empty block, with the first one of them. -/
theorem layOut_eq_error_iff_firstEmptyBlock? {s : Spacing} {ns : List Node} {e : StructureError} :
    layOut s ns = .error e ↔ firstEmptyBlock? ns = some e := by
  rw [layOut_eq]
  cases firstEmptyBlock? ns <;> simp

/-- Nodes are laid out, in whatever style, unless there is a block among them with nothing in it, at
    whatever depth. The place of the first one is told then. The styles that are chosen in blocks are
    never refused. -/
theorem firstEmpty_layOut (style : Style) (ns : List Node) :
    ((∃ e, layOut style.spacing ns = .error e) ↔ ∃ b ∈ allBlocks ns, b.1 = []) ∧
      (∀ e, layOut style.spacing ns = .error e
        ↔ ∃ span, IsFirstEmpty ns span ∧ e = .emptyBlock span.start) ∧
      ∀ form : BlockForm, ∃ newLineLists, style.change ⟨none, none, none, newLineLists, none⟩
        = .ok { style with spacing := form.spacing style.spacing } := by
  refine ⟨?_, fun e => ?_, style.exists_change_eq_spacing⟩
  · rw [← isSome_firstEmptyBlock?_iff, Option.isSome_iff_exists]
    simp only [layOut_eq_error_iff_firstEmptyBlock?]
  · rw [layOut_eq_error_iff_firstEmptyBlock?, firstEmptyBlock?_eq_some_iff]

/-- The blocks of a list and one behind the list have nothing in them. The outer one of the list is
    opened first, but there is something in it. -/
example : layOut ⟨4, false⟩ [.leaf (.placed .word ['f'] 0),
    .block [.leaf (.placed .word ['a'] 2), .block [] ⟨3, 5⟩, .block [] ⟨6, 8⟩] ⟨1, 9⟩,
    .block [] ⟨10, 12⟩] = .error (.emptyBlock 3) := by
  rfl

end Node

end SqlScript
