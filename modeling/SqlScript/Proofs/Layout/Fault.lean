import SqlScript.Proofs.Layout.Gather
import SqlScript.Proofs.Node.Balance

namespace SqlScript

/-!
# What cannot be laid out

A sequence of nodes can be laid out unless there is an empty block in it, and the nodes of a script
have none. So a script can be formatted unless its parentheses have no counterparts.

* `Node.firstEmptyBlock?` — the first empty block of a sequence of nodes;
* `Draft.fault_addNodes` — laying out nodes fails because of that block, and for no other reason;
* `Style.layOut_eq_error_iff` — laying out statements fails because of the parentheses of the first
  statement that has some without a counterpart;
* `Style.format_eq_error_iff` — formatting a script fails exactly when its tokens make no nodes.
-/

/-! ### Empty blocks -/

namespace Node

mutual

/-- The first block of a node with nothing in it, which the node itself can be. -/
def emptyBlock? : Node → Option StructureError
  | leaf _ => none
  | block interior span =>
    if interior.isEmpty then some (.emptyBlock span.start) else firstEmptyBlock? interior

/-- The first block of a sequence of nodes with nothing in it, at whatever depth. -/
def firstEmptyBlock? : List Node → Option StructureError
  | [] => none
  | n :: rest => n.emptyBlock?.or (firstEmptyBlock? rest)

end

mutual

/-- In a node without empty blocks none is found. -/
theorem emptyBlock?_of_isFull : (n : Node) → n.IsFull → n.emptyBlock? = none
  | leaf _, _ => rfl
  | block interior span, h => by
    rw [emptyBlock?, if_neg (by simpa using h.1)]
    exact firstEmptyBlock?_of_allFull interior h.2

/-- Where no block is empty, none is found. -/
theorem firstEmptyBlock?_of_allFull : (ns : List Node) → AllFull ns → firstEmptyBlock? ns = none
  | [], _ => rfl
  | n :: rest, h => by
    rw [firstEmptyBlock?, emptyBlock?_of_isFull n h.1, firstEmptyBlock?_of_allFull rest h.2]
    rfl

end

end Node

/-! ### Drafts -/

namespace Draft

variable (d : Draft) (s : Spacing)

/-- A piece is nothing wrong. -/
@[simp] theorem fault_put (p : Piece) : (d.put p).fault = d.fault := rfl

/-- The pieces of a line are nothing wrong. -/
@[simp] theorem fault_putAll (l : Line) : (d.putAll l).fault = d.fault := by
  unfold putAll
  induction l generalizing d with
  | nil => rfl
  | cons p l ih => rw [List.foldl_cons, ih, fault_put]

/-- A new line is nothing wrong. -/
@[simp] theorem fault_startLine (levels : Int) : (d.startLine s levels).fault = d.fault := rfl

/-- The lines of a block are nothing wrong when they are inserted. -/
@[simp] theorem fault_insert (ls : List Line) : (d.insert s ls).fault = d.fault := rfl

/-- What is noted counts when nothing was wrong before. -/
@[simp] theorem fault_note (fault : Option StructureError) :
    (d.note fault).fault = d.fault.or fault := rfl

variable {d s} {e : Draft}

/-- A space or none leaves what is wrong as it was. -/
theorem fault_spaces (h : d.Spaces e) : e.fault = d.fault := by
  cases h <;> rfl

/-- What opens the place of a token leaves what is wrong as it was. -/
theorem fault_opens (h : d.Opens s e) : e.fault = d.fault := by
  cases h with
  | inLine h => exact fault_spaces h
  | startLine levels => rfl

/-- There is nothing wrong with a token. -/
theorem fault_tokenStep {t : Token} (h : d.TokenStep s t e) : e.fault = d.fault := by
  cases h with
  | put hopens _ _ => rw [fault_put, fault_opens hopens]
  | putLine levels hopens _ _ => rw [fault_startLine, fault_put, fault_opens hopens]
  | lineComment hspaces _ =>
    rw [fault_startLine, ← fault_spaces hspaces]
    rfl

/-- With a block, it can be that there is nothing in it, and else there can be something wrong with
    its interior. -/
theorem fault_blockStep {interior : List Node} {offset : Int} {inner : Draft}
    (hinner : inner.fault = Node.firstEmptyBlock? interior)
    (h : d.BlockStep s interior offset inner e) :
    e.fault = d.fault.or (if interior.isEmpty then some (.emptyBlock offset) else inner.fault) := by
  cases h with
  | empty hnil => simp [hnil]
  | single t hleaf _ => simp [hleaf, hinner, Node.firstEmptyBlock?, Node.emptyBlock?]
  | inLine l hne _ => simp [hne]
  | lines hne hspaces => simp [hne, fault_spaces hspaces]

mutual

/-- With a node, what is wrong is the first empty block in it, unless something was wrong before. -/
theorem fault_addNode (s : Spacing) (f : Frame) (position : Nat) (joined : Bool) (d : Draft) :
    (n : Node) → (d.addNode s f position joined n).fault = d.fault.or n.emptyBlock?
  | .leaf t => by
    rw [addNode, fault_tokenStep (d.tokenStep_addToken ..), Node.emptyBlock?, Option.or_none]
  | .block interior span => by
    have hinner : (start.addNodes ((blockForm f interior).spacing s) (Frame.ofNodes interior) 0
        false interior).fault = Node.firstEmptyBlock? interior :=
      fault_addNodes _ (Frame.ofNodes interior) 0 false start interior
    rw [addNode, fault_blockStep hinner (d.blockStep_addBlock ..), hinner, Node.emptyBlock?]

/-- Laying out nodes notes the first empty block among them, when there was nothing wrong before. -/
theorem fault_addNodes (s : Spacing) (f : Frame) (position : Nat) (joined : Bool) (d : Draft) :
    (ns : List Node) →
      (d.addNodes s f position joined ns).fault = d.fault.or (Node.firstEmptyBlock? ns)
  | [] => by rw [addNodes, Node.firstEmptyBlock?, Option.or_none]
  | n :: rest => by
    rw [addNodes, fault_addNodes s f (position + 1) (f.joinsNext position n) _ rest,
      fault_addNode s f position joined d n, Node.firstEmptyBlock?, Option.or_assoc]

end

end Draft

/-- Nodes are laid out unless there is an empty block among them. -/
theorem Node.layOut_eq (s : Spacing) (ns : List Node) :
    layOut s ns = (firstEmptyBlock? ns).elim (.ok (draft s ns).finish) .error := by
  have hfault : (draft s ns).fault = firstEmptyBlock? ns := Draft.fault_addNodes ..
  rw [layOut, hfault]
  cases firstEmptyBlock? ns <;> rfl

/-! ### Statements -/

/-- A statement is laid out unless its tokens make no nodes. -/
theorem Statement.layOut_eq_error_iff {sp : Spacing} {s : Statement}
    (hts : ∀ t ∈ s.tokens, t.IsParenPlaced) {e : StructureError} :
    s.layOut sp = .error e ↔ Node.ofTokens s.tokens = .error e := by
  unfold layOut
  cases hns : Node.ofTokens s.tokens with
  | error e' => simp [bind, Except.bind]
  | ok ns =>
    have hfull := Node.firstEmptyBlock?_of_allFull ns (Node.allFull_ofTokens hts hns)
    have hlines : Node.layOut sp ns = .ok (Node.draft sp ns).finish := by
      rw [Node.layOut_eq, hfull, Option.elim_none]
    refine iff_of_false (fun h => ?_) (by simp)
    simp [bind, Except.bind, hlines, pure, Except.pure] at h

/-- Statements are laid out unless there are parentheses without a counterpart in one of them, the
    first of which is told. -/
theorem Style.layOut_eq_error_iff {style : Style} {previous : Option Statement}
    (ss : List (Statement × Int)) (hts : ∀ p ∈ ss, ∀ t ∈ p.1.tokens, t.IsParenPlaced)
    {e : StructureError} : style.layOut previous ss = .error e
      ↔ (ss.map Prod.fst).findSome? (fun s => Token.parenFault? [] s.tokens) = some e := by
  induction ss generalizing previous with
  | nil => simp [layOut]
  | cons p ss ih =>
    obtain ⟨s, indent⟩ := p
    have hown : ∀ {e'}, s.layOut style.spacing = .error e'
        ↔ Token.parenFault? [] s.tokens = some e' := fun {e'} => by
      rw [Statement.layOut_eq_error_iff (hts (s, indent) (by simp)), Node.ofTokens_eq_error_iff]
    have hothers : style.layOut (some s) ss = .error e
        ↔ (ss.map Prod.fst).findSome? (fun s => Token.parenFault? [] s.tokens) = some e :=
      ih fun q hq => hts q (by simp [hq])
    rw [layOut, List.map_cons, List.findSome?_cons]
    cases hlines : s.layOut style.spacing with
    | error e' =>
      rw [hown.mp hlines]
      simp [bind, Except.bind]
    | ok own =>
      have hnone : Token.parenFault? [] s.tokens = none := by
        rw [Option.eq_none_iff_forall_ne_some]
        intro e' he'
        rw [hown.mpr he'] at hlines
        exact absurd hlines (by simp)
      rw [hnone, ← hothers]
      cases style.layOut (some s) ss <;> simp [bind, Except.bind, pure, Except.pure]

/-! ### Scripts -/

/-- The name of a case names it. -/
theorem caseNamed_name (field : StyleField) (c : LetterCase) :
    caseNamed field c.name.toList = .ok c := by
  cases c <;> rfl

namespace Style

/-- A style is what it asks for. -/
theorem ofRequest_request (style : Style) (newLineLists : Bool) :
    ofRequest { style.request with newLineLists := newLineLists }
      = .ok { style with spacing := { style.spacing with newLineLists := newLineLists } } := by
  have hwidth : ¬(style.spacing.indentWidth : Int) < 0 := by omega
  simp [ofRequest, request, caseNamed_name, hwidth, bind, Except.bind]

/-- The spacing in a block is one that can be asked for. -/
theorem exists_change_eq_spacing (style : Style) (form : BlockForm) :
    ∃ newLineLists, style.change ⟨none, none, none, newLineLists, none⟩
      = .ok { style with spacing := form.spacing style.spacing } := by
  have hsame := style.ofRequest_request style.spacing.newLineLists
  cases form with
  | empty => exact ⟨none, hsame⟩
  | single t => exact ⟨none, hsame⟩
  | compact => exact ⟨some false, style.ofRequest_request false⟩
  | expanded startsWithKeyword asList =>
    cases asList with
    | true => exact ⟨some true, style.ofRequest_request true⟩
    | false => exact ⟨none, hsame⟩

/-- Formatting a script fails exactly when its tokens make no nodes, and for the same reason, which
    is a parenthesis without a counterpart. No block of a script is found empty, and the styles that
    are chosen in blocks are never refused. -/
theorem format_eq_error_iff (style : Style) (t : Text) :
    (∀ e, style.format t = .error e ↔ Node.ofTokens (Token.scan t) = .error e) ∧
      (∀ e, style.format t = .error e → ∃ n, e = .unexpectedClose n ∨ e = .unclosedOpen n) ∧
      ∀ form : BlockForm, ∃ newLineLists, style.change ⟨none, none, none, newLineLists, none⟩
        = .ok { style with spacing := form.spacing style.spacing } := by
  have hcuts : Statement.Cuts (Token.scan t) (Statement.ofTokens (Token.scan t)) :=
    Statement.cuts_ofTokens fun u hu => Token.isRead_of_mem_scan hu
  have hiff : ∀ e, style.format t = .error e ↔ Node.ofTokens (Token.scan t) = .error e := by
    intro e
    have hlines : style.layOut none ((Script.ofText t).indentations style.spacing.indentWidth)
          = .error e
        ↔ _ := layOut_eq_error_iff _ fun p hp u hu =>
      Token.isParenPlaced_of_mem_scan (Script.mem_scan_of_mem_indentations hp hu)
    rw [Script.map_fst_indentations] at hlines
    rw [Node.ofTokens_eq_error_iff, hcuts.parenFault?, show Statement.ofTokens (Token.scan t)
      = (Script.ofText t).statements from rfl, ← hlines]
    show Except.map _ (style.layOut none _) = .error e ↔ _
    cases style.layOut none ((Script.ofText t).indentations style.spacing.indentWidth) <;>
      simp [Except.map]
  refine ⟨hiff, fun e he => ?_, style.exists_change_eq_spacing⟩
  rw [hiff, Node.ofTokens_eq_error_iff] at he
  exact Token.exists_of_parenFault? he

end Style

end SqlScript
