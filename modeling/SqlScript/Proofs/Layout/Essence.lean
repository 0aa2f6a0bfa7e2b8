import SqlScript.Proofs.Layout.Fusion
import SqlScript.Proofs.Node.Balance

namespace SqlScript

/-!
# The tokens of a formatted script

Where no tokens fuse, a formatted script has the tokens of the script that it was made of, and where
some do it has not.

* `Text.essence` — what a text is made of, apart from how its statements and its lines end;
* `Gathering.lexemes` — the lexemes that lines are made of;
* `Style.essence_format_iff` — formatting in the cases that are there keeps the essence of a text
  exactly when no tokens fuse.
-/

/-! ### Depth -/

/-- All parentheses of nodes are closed. -/
theorem Node.depth_of_ofTokens {ts : List Token} {ns : List Node} (h : ofTokens ts = .ok ns) :
    depthAfterAll Token.kind 0 ts = 0 :=
  Nesting.depth_of_addAll h

/-- Statements that are laid out have closed all their parentheses. -/
theorem Style.depth_of_layOut {style : Style} {previous : Option Statement}
    {ss : List (Statement × Int)} {ls : List Line} (h : style.layOut previous ss = .ok ls) :
    ∀ s ∈ ss.map (·.1), depthAfterAll Token.kind 0 s.tokens = 0 := by
  induction ss generalizing previous ls with
  | nil => simp
  | cons p ss ih =>
    obtain ⟨s, indent⟩ := p
    obtain ⟨own, others, hown, hothers, -⟩ := layOut_cons_eq_ok h
    obtain ⟨ns, -, hns, -⟩ := Statement.layOut_eq_ok hown
    rw [List.map_cons, List.forall_mem_cons]
    exact ⟨Node.depth_of_ofTokens hns, ih hothers⟩

/-! ### Lexemes of lines -/

/-- The lexemes that pieces and tokens show. -/
def Gathering.lexemes (c : Casing) : Gathering Lexeme where
  ofPiece p := if Text.isBlank p.source then [] else (p.lexeme? c).toList
  ofToken t := if Text.isBlank t.text then [] else [t.shownAs c]
  ofPiece_of_isBlank p h := by rw [if_pos h]
  ofPiece_cased _ := rfl
  ofPiece_verbatim t ht hk := by
    have happly : c.apply t = t.text := by
      rcases hk with hk | hk
      · obtain ⟨m, hm⟩ := Option.isSome_iff_exists.mp hk
        exact c.apply_of_mark? ht hm
      · exact c.apply_of_comment hk
    rw [Token.shownAs_of_apply happly]
    rfl
  ofToken_opening span := by
    have happly : c.apply (Node.opening span) = (Node.opening span).text :=
      c.apply_of_mark? (isMarked_placed rfl _) rfl
    rw [Token.shownAs_of_apply happly]
    rfl
  ofToken_closing span := by
    have happly : c.apply (Node.closing span) = (Node.closing span).text :=
      c.apply_of_mark? (isMarked_placed rfl _) rfl
    rw [Token.shownAs_of_apply happly]
    rfl

namespace Gathering

/-- The lexemes of closed pieces are all gathered. -/
theorem lexemes_ofLine {c : Casing} {l : Line} (h : ∀ p ∈ l, p.IsClosed c) :
    (lexemes c).ofLine l = Line.lexemes c l := by
  induction l with
  | nil => rfl
  | cons p l ih =>
    have hpiece : (lexemes c).ofPiece p = (p.lexeme? c).toList := by
      show (if Text.isBlank p.source then [] else (p.lexeme? c).toList) = _
      split
      · rename_i hblank
        cases hx : p.lexeme? c with
        | none => rfl
        | some x =>
          have hshown := (h p (by simp)).shown_not_isBlank hx
          rw [(p.recased c).isBlank, hblank] at hshown
          exact absurd hshown (by decide)
      · rfl
    rw [ofLine_cons, ih fun q hq => h q (by simp [hq]), hpiece]
    cases hx : p.lexeme? c with
    | none => rw [Line.lexemes, Line.lexemes, List.filterMap_cons_none hx]; rfl
    | some x => rw [Line.lexemes, Line.lexemes, List.filterMap_cons_some hx]; rfl

/-- The lexemes of lines are those of each line, in order. -/
theorem lexemes_ofLines {c : Casing} {ls : List Line} (h : ∀ l ∈ ls, ∀ p ∈ l, p.IsClosed c) :
    (lexemes c).ofLines ls = ls.flatMap (Line.lexemes c) := by
  induction ls with
  | nil => rfl
  | cons l ls ih =>
    rw [ofLines_cons, lexemes_ofLine (h l (by simp)), ih fun m hm => h m (by simp [hm]),
      List.flatMap_cons]

/-- The lexemes of closed tokens are all gathered. -/
theorem lexemes_ofTokens {c : Casing} {ts : List Token} (h : ∀ t ∈ ts, t.lexeme.Proper) :
    ts.flatMap (lexemes c).ofToken = ts.map (Token.shownAs c) := by
  induction ts with
  | nil => rfl
  | cons t ts ih =>
    have hblank : Text.isBlank t.text = false := (h t (by simp)).not_isBlank
    have htoken : (lexemes c).ofToken t = [t.shownAs c] := by
      show (if Text.isBlank t.text then [] else [t.shownAs c]) = _
      rw [hblank, if_neg (by decide)]
    rw [List.flatMap_cons, htoken, ih fun u hu => h u (by simp [hu])]
    rfl

end Gathering

/-- The semicolons that the layout puts behind statements are all outside of parentheses, and there
    are no others. -/
theorem unended_ofStatements {c : Casing} {ss : List Statement}
    (hproper : ∀ s ∈ ss, ∀ t ∈ s.tokens, t.lexeme.Proper)
    (hdepth : ∀ s ∈ ss, depthAfterAll Token.kind 0 s.tokens = 0)
    (hself : unended Token.kind 0 (ss.flatMap (·.tokens)) = ss.flatMap (·.tokens)) :
    unended Lexeme.kind 0 (ss.flatMap (Gathering.lexemes c).ofStatement)
      = (ss.flatMap (·.tokens)).map (Token.shownAs c) := by
  have hkind : Lexeme.kind ∘ Token.shownAs c = Token.kind := rfl
  induction ss with
  | nil => rfl
  | cons s ss ih =>
    rw [List.flatMap_cons] at hself
    obtain ⟨hs, hrest⟩ := unended_eq_self_of_append Token.kind hself
    rw [hdepth s (by simp)] at hrest
    -- A statement closes its parentheses, so that the semicolon behind it is left out.
    have hown : unended Lexeme.kind 0 ((Gathering.lexemes c).ofStatement s)
          = s.tokens.map (Token.shownAs c) ∧
        depthAfterAll Lexeme.kind 0 ((Gathering.lexemes c).ofStatement s) = 0 := by
      rw [Gathering.ofStatement, Gathering.lexemes_ofTokens (hproper s (by simp)), unended_append,
        depthAfterAll_append, unended_map, depthAfterAll_map, hkind, hs, hdepth s (by simp)]
      split
      · exact ⟨List.append_nil _, rfl⟩
      · exact ⟨List.append_nil _, rfl⟩
    rw [List.flatMap_cons, List.flatMap_cons, unended_append, hown.1, hown.2, List.map_append,
      ih (fun q hq => hproper q (by simp [hq])) (fun q hq => hdepth q (by simp [hq])) hrest]

/-! ### Scripts -/

/-- What a text is made of: its lexemes without the semicolons outside of all parentheses, and without
    the blanks at the end of comments that end with their line. -/
def Text.essence (t : Text) : List Lexeme :=
  (unended Token.kind 0 (Token.scan t)).map fun u => u.lexeme.trimmed

/-- The essence of a text is made of its lexemes that end no statement. -/
theorem Text.essence_eq (t : Text) :
    essence t = (unended Lexeme.kind 0 (lexemes t)).map Lexeme.trimmed := by
  rw [lexemes, unended_map, List.map_map]
  rfl

/-- Every token of a text is read when it stands alone. -/
theorem Token.proper_of_mem_scan {t : Text} {u : Token} (h : u ∈ scan t) : u.lexeme.Proper := by
  obtain ⟨before, after, hsplit⟩ := List.append_of_mem h
  obtain ⟨rest, -, -, hread, -⟩ := Text.scan_split hsplit
  exact hread.proper

/-- Where the last token of a text is closed, all of them are. -/
theorem Token.isOpen_of_mem_scan {t : Text} {u : Token}
    (hlast : ∀ v ∈ (scan t).getLast?, v.lexeme.isOpen = false) (h : u ∈ scan t) :
    u.lexeme.isOpen = false := by
  obtain ⟨before, after, hsplit⟩ := List.append_of_mem h
  by_contra hopen
  rw [Bool.not_eq_false] at hopen
  obtain rfl := eq_nil_of_isOpen hsplit hopen
  exact absurd (hopen.symm.trans (hlast u (by simp [hsplit]))) (by decide)

namespace Style

/-- Words are written as they are in the cases that are there. -/
theorem shownAs_preserve (u : Token) : u.shownAs ⟨.preserve, .preserve⟩ = u.lexeme := by
  refine Token.shownAs_of_apply ?_
  unfold Casing.apply
  split
  · rfl
  · split <;> rfl

/-- Formatting in the cases that are there, a text whose last token is closed, keeps the tokens of the
    text exactly when no tokens of a statement fuse. The semicolons outside of all parentheses are
    left out of account, and so are the blanks at the end of comments that end with their line. -/
theorem essence_format_iff {style : Style} (hcasing : style.casing = ⟨.preserve, .preserve⟩)
    {t r : Text} (hlast : ∀ u ∈ (Token.scan t).getLast?, u.lexeme.isOpen = false)
    (h : style.format t = .ok r) :
    r.essence = t.essence ↔
      ∀ s ∈ (Script.ofText t).statements, s.IsApart ⟨.preserve, .preserve⟩ := by
  obtain ⟨ls, hls, rfl⟩ := format_eq_ok h
  rw [hcasing]
  have hclosed : ∀ u ∈ Token.scan t, u.IsClosed ⟨.preserve, .preserve⟩ := fun u hu => by
    rw [Token.IsClosed, shownAs_preserve]
    exact ⟨Token.proper_of_mem_scan hu, Token.isOpen_of_mem_scan hlast hu⟩
  have hmem : ∀ s ∈ (Script.ofText t).statements, ∀ u ∈ s.tokens, u ∈ Token.scan t :=
    fun s hs u hu => Statement.mem_of_mem_tokens hs hu
  obtain ⟨hpieces, hbounded, hapart⟩ := Script.linked_admits_iff hclosed hls
  -- The lexemes of the lines are those of the text, but for the semicolons that end statements.
  have hessence : (unended Lexeme.kind 0 (ls.flatMap (Line.lexemes ⟨.preserve, .preserve⟩))).map
      Lexeme.trimmed = t.essence := by
    have htokens := Statement.flatMap_tokens_ofTokens (Token.scan t)
    have hdepth := depth_of_layOut hls
    rw [Script.map_fst_indentations] at hdepth
    rw [← Gathering.lexemes_ofLines hpieces, Gathering.script_layOut _ hls, unended_ofStatements
      (fun s hs u hu => Token.proper_of_mem_scan (hmem s hs u hu)) hdepth]
    · rw [show (Script.ofText t).statements.flatMap (·.tokens)
        = unended Token.kind 0 (Token.scan t) from htokens, List.map_map, Text.essence]
      refine List.map_congr_left fun u _ => ?_
      rw [Function.comp_apply, shownAs_preserve]
    · rw [show (Script.ofText t).statements.flatMap (·.tokens)
        = unended Token.kind 0 (Token.scan t) from htokens, unended_unended]
  rw [← hapart, Text.essence_eq, ← hessence]
  constructor
  · exact Script.linked_of_unended_write t hpieces hbounded
  · intro hlinked
    have hkind : Lexeme.kind ∘ Lexeme.trimmed = Lexeme.kind := funext Lexeme.kind_trimmed
    rw [Script.lexemes_write t hpieces hbounded hlinked, unended_map, hkind, List.map_map]
    exact List.map_congr_left fun x _ => Lexeme.trimmed_trimmed x

/-- The styles that keep the cases that are there, indented by four. -/
abbrev plain : Style := ⟨⟨4, false⟩, ⟨.preserve, .preserve⟩, false⟩

/-- A statement whose tokens stay apart, with a host variable, in front of a comment. -/
theorem essence_format_iff_host :
    plain.format "set a.b = (:x, 1); -- c ".toList = .ok "set a.b =(:x,1);\n-- c".toList ∧
      (Text.essence "set a.b =(:x,1);\n-- c".toList
          = Text.essence "set a.b = (:x, 1); -- c ".toList ↔
        ∀ s ∈ (Script.ofText "set a.b = (:x, 1); -- c ".toList).statements,
          s.IsApart ⟨.preserve, .preserve⟩) :=
  have h : plain.format "set a.b = (:x, 1); -- c ".toList
      = .ok "set a.b =(:x,1);\n-- c".toList := by decide +kernel
  ⟨h, essence_format_iff rfl (by decide +kernel) h⟩

/-- A dot that is written right behind digits belongs to their number. -/
theorem essence_format_fused :
    plain.format "1 .a".toList = .ok "1.a;".toList ∧
      (∀ u ∈ (Token.scan "1 .a".toList).getLast?, u.lexeme.isOpen = false) ∧
      Text.essence "1.a;".toList ≠ Text.essence "1 .a".toList :=
  ⟨by decide +kernel, by decide +kernel, by decide +kernel⟩

end Style

end SqlScript
