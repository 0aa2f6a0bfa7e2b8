import SqlScript.Proofs.Layout.Place
import SqlScript.Proofs.Layout.Reread
import SqlScript.Proofs.Script.Segment
import SqlScript.Proofs.Token.Part

namespace SqlScript

/-!
# Finished parts of scripts

A script that ends with a semicolon outside of all parentheses, and leaves no body open, is finished:
it is read and formatted as before when another one follows, and so is the other one.

* `Statement.ofTokens_append_of_semicolon` and `Group.ofStatements_append` — the statements and the
  groups of two scripts, one after the other;
* `Style.layOut_append` and `Script.write_append` — their lines and what is written of them;
* `Text.lineBreak_append` — their line breaks;
* `Script.ofText_append` — the script of both, and what it is formatted to;
* `Script.format_append_joined` — a line break that comes about between them changes all others.
-/

/-! ### Statements and groups -/

namespace Statement

open Splitter

/-- Behind a semicolon outside of all parentheses, what comes next is on its own. -/
theorem ofTokens_append_of_semicolon {ts us : List Token} {semicolon : Token}
    (hread : ∀ t ∈ ts ++ [semicolon], t.IsRead) (hk : semicolon.kind = .semicolon)
    (hdepth : depthAfterAll Token.kind 0 ts = 0) :
    ofTokens (ts ++ [semicolon] ++ us) = ofTokens (ts ++ [semicolon]) ++ ofTokens us := by
  have hts : ∀ t ∈ ts, t.IsRead := fun t ht => hread t (by simp [ht])
  -- What is read up to the semicolon does not depend on what follows it.
  have hrun : ∀ vs, run (semicolon :: vs) .start ts = run [] .start ts := fun vs => by
    refine ((sound_start _).run_eq_of_awaited_none [] (semicolon :: vs) hts ?_).symm
    have hsound := (sound_start (ts ++ semicolon :: vs)).run hts
    exact hsound.awaited_eq_none hk (hread semicolon (by simp))
  have hends : (run [] .start ts).2.endsAt semicolon = true :=
    endsAt_iff.mpr ⟨hk, (parens_run [] .start ts).trans hdepth⟩
  have hstep : ∀ vs, (run [] .start ts).2.step semicolon vs
      = ((run [] .start ts).2.finish.map fun q => (q, .semicolon), .start) := fun vs => by
    rw [step, if_pos hends]
  have hsplit : ∀ vs, ofTokens (ts ++ [semicolon] ++ vs)
      = (run [] .start ts).1.map Prod.fst ++ (run [] .start ts).2.finish ++ ofTokens vs := fun vs => by
    rw [List.append_assoc, List.singleton_append, ofTokens_append, hrun, split_cons, hstep,
      List.map_map, List.append_assoc]
    exact congrArg (_ ++ ·) (congrArg (· ++ _) (List.map_id _))
  have hfirst := hsplit []
  rw [List.append_nil] at hfirst
  rw [hsplit, hfirst, show ofTokens [] = [] from rfl, List.append_nil]

end Statement

namespace Group

/-- Where no body is left open, what comes next starts a group. -/
theorem gather_append {current : List Statement} {depth : Int} {ss : List Statement}
    (hcurrent : current = [] → depth = 0)
    (hclosed : ∀ g ∈ (gather current depth ss).getLast?, g.ending ≠ .unclosed)
    (rest : List Statement) :
    gather current depth (ss ++ rest) = gather current depth ss ++ gather [] 0 rest := by
  induction ss generalizing current depth with
  | nil =>
    by_cases hnil : current = []
    · obtain rfl := hnil
      rw [hcurrent rfl]
      rfl
    · -- Statements that are left make a group which is not closed.
      rw [gather, dif_neg hnil] at hclosed
      exact absurd rfl (hclosed _ rfl)
  | cons s ss ih =>
    rw [List.cons_append, gather, gather] at *
    by_cases hdepth : 0 < depth + s.depthChange
    · rw [if_pos hdepth] at hclosed ⊢
      rw [if_pos hdepth]
      exact ih (by simp) hclosed
    · rw [if_neg hdepth] at hclosed ⊢
      rw [if_neg hdepth, ih (fun _ => rfl) fun g hg => hclosed g ?_]
      · rfl
      · rw [List.getLast?_cons, Option.mem_def.mp hg]
        rfl

/-- Where no body is left open, the groups of the statements that come next are those that they make on
    their own. -/
theorem ofStatements_append {ss : List Statement}
    (hclosed : ∀ g ∈ (ofStatements ss).getLast?, g.ending ≠ .unclosed) (rest : List Statement) :
    ofStatements (ss ++ rest) = ofStatements ss ++ ofStatements rest :=
  gather_append (fun _ => rfl) hclosed rest

end Group

/-! ### Lines -/

/-- Nodes have a line at least. -/
theorem Node.ne_nil_of_layOut {sp : Spacing} {ns : List Node} {ls : List Line}
    (h : layOut sp ns = .ok ls) : ls ≠ [] := by
  have hlines : (draft sp ns).lines ≠ [] := by simp [Draft.lines]
  unfold layOut at h
  split at h
  · exact absurd h (by simp)
  · obtain rfl := Except.ok.inj h
    unfold Draft.finish
    split
    · exact hlines
    · obtain ⟨l, rest, hl⟩ := List.exists_cons_of_ne_nil hlines
      rw [hl, Line.dropBlankEnd]
      simp

/-- A statement has a line at least. -/
theorem Statement.ne_nil_of_layOut {sp : Spacing} {s : Statement} {ls : List Line}
    (h : s.layOut sp = .ok ls) : ls ≠ [] := by
  obtain ⟨ns, own, -, hown, rfl⟩ := layOut_eq_ok h
  obtain ⟨l, rest, rfl⟩ := List.exists_cons_of_ne_nil (Node.ne_nil_of_layOut hown)
  split
  · simp [Line.dropBlankEnd]
  · split
    · simp [terminated]
    · simp

namespace Style

variable {style : Style} {previous : Option Statement}

/-- Where no empty lines come between statements, it does not matter what came before. -/
theorem layOut_of_not_spaceBetween (hspace : style.spaceBetween = false)
    (ss : List (Statement × Int)) : style.layOut previous ss = style.layOut none ss := by
  cases ss with
  | nil => rfl
  | cons p ss =>
    have hgap : ∀ q, style.separates q p.1 = false := fun q => by
      rw [separates, hspace, Bool.false_and]
    rw [layOut, layOut, hgap, hgap]

/-- The lines of statements, one after the other. -/
theorem layOut_append (hspace : style.spaceBetween = false) {ss ss' : List (Statement × Int)}
    {ls ls' : List Line} (h : style.layOut previous ss = .ok ls)
    (h' : style.layOut none ss' = .ok ls') : style.layOut previous (ss ++ ss') = .ok (ls ++ ls') := by
  induction ss generalizing previous ls with
  | nil =>
    obtain rfl := Except.ok.inj h
    rw [List.nil_append, layOut_of_not_spaceBetween hspace, h']
    rfl
  | cons p ss ih =>
    obtain ⟨s, indent⟩ := p
    obtain ⟨own, others, hown, hothers, rfl⟩ := layOut_cons_eq_ok h
    rw [List.cons_append, layOut, hown, ih hothers]
    simp only [bind, Except.bind, pure, Except.pure, List.append_assoc]

/-- Statements have lines. -/
theorem ne_nil_of_layOut {ss : List (Statement × Int)} {ls : List Line} (hne : ss ≠ [])
    (h : style.layOut previous ss = .ok ls) : ls ≠ [] := by
  obtain ⟨⟨s, indent⟩, ss, rfl⟩ := List.exists_cons_of_ne_nil hne
  obtain ⟨own, others, hown, -, rfl⟩ := layOut_cons_eq_ok h
  have hlines := Statement.ne_nil_of_layOut hown
  simp [hlines]

end Style

/-- What is written of lines, one after the other. -/
theorem Script.write_append (c : Casing) (eol : Text) {ls ms : List Line} (hls : ls ≠ [])
    (hms : ms ≠ []) : write c eol (ls ++ ms) = write c eol ls ++ eol ++ write c eol ms := by
  induction ls with
  | nil => exact absurd rfl hls
  | cons l ls ih =>
    cases ls with
    | nil =>
      obtain ⟨m, ms, rfl⟩ := List.exists_cons_of_ne_nil hms
      rw [List.singleton_append, write_cons_cons, write_singleton, List.append_assoc]
    | cons k ls =>
      have hrest := ih (by simp)
      rw [List.cons_append] at hrest
      rw [List.cons_append, List.cons_append, write_cons_cons, write_cons_cons, hrest]
      simp only [List.append_assoc]

/-! ### Line breaks -/

open Text (hasPart carriageReturnLineFeed)

/-- Two texts have the line breaks of both, unless one comes about between them. -/
theorem Text.lineBreak_append {p s : Text}
    (hsame : hasPart carriageReturnLineFeed p = hasPart carriageReturnLineFeed s)
    (hbetween : hasPart carriageReturnLineFeed p = false →
      ¬(p.getLast? = some '\r' ∧ s.head? = some '\n')) : lineBreak (p ++ s) = lineBreak p := by
  have hpart : hasPart carriageReturnLineFeed (p ++ s) = hasPart carriageReturnLineFeed p := by
    cases hp : hasPart carriageReturnLineFeed p with
    | true =>
      have hinfix := (hasPart_iff_isInfix.mp hp).trans (List.prefix_append p s).isInfix
      exact hasPart_iff_isInfix.mpr hinfix
    | false =>
      have hs := (hasPart_eq_false_iff s).mp (hsame.symm.trans hp)
      rw [hasPart_eq_false_iff, List.isChain_append]
      refine ⟨(hasPart_eq_false_iff p).mp hp, hs, fun c hc d hd hjoined => hbetween hp ?_⟩
      obtain ⟨rfl, rfl⟩ := hjoined
      exact ⟨hc, hd⟩
  rw [lineBreak, hpart, lineBreak]

/-! ### Scripts -/

namespace Script

open Token (shift keepsLexemes_shift)

variable {p s : Text}

/-- Where the groups of two scripts follow each other, so do their lines, when no empty lines come
    between statements. -/
theorem format_append {style : Style} (hspace : style.spaceBetween = false) {n : Int}
    (hgroups : (ofText (p ++ s)).groups
      = (ofText p).groups ++ (ofText s).groups.map (Group.map (shift n)))
    (hp : (ofText p).statements ≠ []) (hs : (ofText s).statements ≠ [])
    (hbreak : Text.lineBreak (p ++ s) = Text.lineBreak p)
    (hbreak' : Text.lineBreak s = Text.lineBreak p) {a b : Text} (ha : style.format p = .ok a)
    (hb : style.format s = .ok b) :
    style.format (p ++ s) = .ok (a ++ Text.lineBreak p ++ b) := by
  obtain ⟨ls, hls, rfl⟩ := Style.format_eq_ok ha
  obtain ⟨ms, hms, rfl⟩ := Style.format_eq_ok hb
  have hindentations : (ofText (p ++ s)).indentations style.spacing.indentWidth
      = (ofText p).indentations style.spacing.indentWidth
        ++ ((ofText s).indentations style.spacing.indentWidth).map
          (Prod.map (Statement.map (shift n)) id) := by
    rw [indentations, hgroups, List.flatMap_append, List.flatMap_map, indentations, indentations,
      List.map_flatMap]
    refine congrArg (_ ++ ·) (congrArg (List.flatMap · _) (funext fun g => ?_))
    exact SqlScript.indentations_map (keepsLexemes_shift n).alike _ 0 g.statements
  obtain ⟨ms', hms', hmoved⟩ := Style.exists_layOut_map (keepsLexemes_shift n) hms
  have hlines : (ofText (p ++ s)).layOut style = .ok (ls ++ ms') := by
    rw [layOut, hindentations]
    exact Style.layOut_append hspace hls hms'
  have hne : ∀ {u : Text} {ks : List Line}, (ofText u).statements ≠ [] →
      (ofText u).layOut style = .ok ks → ks ≠ [] := fun {u ks} hu hks => by
    refine Style.ne_nil_of_layOut (fun hnil => hu ?_) hks
    rw [← map_fst_indentations style.spacing.indentWidth u, hnil]
    rfl
  have hms'ne : ms' ≠ [] := by
    intro hnil
    rw [hnil] at hmoved
    exact hne hs hms (List.map_eq_nil_iff.mp hmoved.symm)
  -- What is written of the lines of the second script does not depend on where it stands.
  have hwrite : write style.casing (Text.lineBreak p) ms'
      = write style.casing (Text.lineBreak s) ms := by
    rw [← write_unplaced, hmoved, write_unplaced, hbreak']
  show ((ofText (p ++ s)).layOut style).map _ = _
  rw [hlines]
  show Except.ok (write style.casing (Text.lineBreak (p ++ s)) (ls ++ ms')) = _
  rw [hbreak, write_append _ _ (hne hp hls) hms'ne, hwrite]

/-- A script that ends with a semicolon outside of all parentheses, and leaves no body open, is read
    as before when another one follows, and so is the other one behind it. They are formatted one after
    the other, when no empty lines come between statements and both have the same line breaks, unless
    one comes about between them. -/
theorem ofText_append {ts : List Token} {semicolon : Token}
    (htokens : Token.scan p = ts ++ [semicolon]) (hk : semicolon.kind = .semicolon)
    (hdepth : depthAfterAll Token.kind 0 ts = 0)
    (hclosed : ∀ g ∈ (ofText p).groups.getLast?, g.ending ≠ .unclosed) (s : Text) :
    (ofText (p ++ s)).tokens = (ofText p).tokens ++ (ofText s).tokens.map (shift p.length) ∧
    (ofText (p ++ s)).statements
      = (ofText p).statements ++ (ofText s).statements.map (Statement.map (shift p.length)) ∧
    (ofText (p ++ s)).groups
      = (ofText p).groups ++ (ofText s).groups.map (Group.map (shift p.length)) ∧
    ∀ style : Style, style.spaceBetween = false →
      (ofText p).statements ≠ [] → (ofText s).statements ≠ [] →
      hasPart carriageReturnLineFeed p = hasPart carriageReturnLineFeed s →
      (hasPart carriageReturnLineFeed p = false →
        ¬(p.getLast? = some '\r' ∧ s.head? = some '\n')) →
      ∀ a b, style.format p = .ok a → style.format s = .ok b →
        style.format (p ++ s) = .ok (a ++ Text.lineBreak p ++ b) := by
  have halike := (keepsLexemes_shift p.length).alike
  have hscan : Token.scan (p ++ s) = Token.scan p ++ (Token.scan s).map (shift p.length) :=
    Token.scan_append_of_semicolon htokens hk s
  have hread : ∀ t ∈ ts ++ [semicolon], t.IsRead := fun t ht =>
    Token.isRead_of_mem_scan (htokens ▸ ht)
  have hstatements : (ofText (p ++ s)).statements
      = (ofText p).statements ++ (ofText s).statements.map (Statement.map (shift p.length)) := by
    show Statement.ofTokens (Token.scan (p ++ s)) = Statement.ofTokens (Token.scan p) ++ _
    rw [hscan, htokens, Statement.ofTokens_append_of_semicolon hread hk hdepth,
      Statement.ofTokens_map halike]
    rfl
  have hgroups : (ofText (p ++ s)).groups
      = (ofText p).groups ++ (ofText s).groups.map (Group.map (shift p.length)) := by
    show Group.ofStatements (ofText (p ++ s)).statements = _
    have hclosed' : ∀ g ∈ (Group.ofStatements (ofText p).statements).getLast?,
        g.ending ≠ .unclosed := hclosed
    rw [hstatements, Group.ofStatements_append hclosed', Group.ofStatements_map halike]
    rfl
  refine ⟨hscan, hstatements, hgroups, ?_⟩
  intro style hspace hp hs hsame hbetween a b ha hb
  have hbreak' : Text.lineBreak s = Text.lineBreak p := by
    rw [Text.lineBreak, ← hsame, Text.lineBreak]
  exact format_append hspace hgroups hp hs (Text.lineBreak_append hsame hbetween) hbreak' ha hb

/-- A body that is closed, in front of another statement. -/
theorem ofText_append_body :
    Token.scan "begin set a = (1;2); end; ".toList
        = (Token.scan "begin set a = (1;2); end; ".toList).dropLast
          ++ [.placed .semicolon [';'] 24] ∧
      depthAfterAll Token.kind 0 (Token.scan "begin set a = (1;2); end; ".toList).dropLast = 0 ∧
      (∀ g ∈ (ofText "begin set a = (1;2); end; ".toList).groups.getLast?, g.ending ≠ .unclosed) ∧
      (ofText ("begin set a = (1;2); end; ".toList ++ "select b from c".toList)).groups
        = (ofText "begin set a = (1;2); end; ".toList).groups
          ++ (ofText "select b from c".toList).groups.map (Group.map (shift 26)) ∧
      Style.format ⟨⟨4, false⟩, ⟨.preserve, .preserve⟩, false⟩
          ("begin set a = (1;2); end; ".toList ++ "select b from c".toList)
        = .ok ("begin\n    set a =(1 ; 2);\nend;".toList
          ++ Text.lineBreak "begin set a = (1;2); end; ".toList ++ "select b from c;".toList) :=
  have htokens : Token.scan "begin set a = (1;2); end; ".toList
      = (Token.scan "begin set a = (1;2); end; ".toList).dropLast
        ++ [.placed .semicolon [';'] 24] := by decide +kernel
  have hdepth : depthAfterAll Token.kind 0
      (Token.scan "begin set a = (1;2); end; ".toList).dropLast = 0 := by decide +kernel
  have hclosed : ∀ g ∈ (ofText "begin set a = (1;2); end; ".toList).groups.getLast?,
      g.ending ≠ .unclosed := by decide +kernel
  have h := (ofText_append htokens rfl hdepth hclosed "select b from c".toList).2.2
  ⟨htokens, hdepth, hclosed, h.1, h.2 _ rfl (by decide +kernel) (by decide +kernel)
    (by decide +kernel) (by decide +kernel) _ _ (by decide +kernel) (by decide +kernel)⟩

/-- A line break that comes about between two scripts changes those in the first one. -/
theorem format_append_joined :
    Token.scan "a;b;\r".toList
        = (Token.scan "a;b;\r".toList).dropLast ++ [.placed .semicolon [';'] 3] ∧
      depthAfterAll Token.kind 0 (Token.scan "a;b;\r".toList).dropLast = 0 ∧
      (∀ g ∈ (ofText "a;b;\r".toList).groups.getLast?, g.ending ≠ .unclosed) ∧
      (ofText "a;b;\r".toList).statements ≠ [] ∧ (ofText "\nc".toList).statements ≠ [] ∧
      hasPart carriageReturnLineFeed "a;b;\r".toList = false ∧
      hasPart carriageReturnLineFeed "\nc".toList = false ∧
      Style.format ⟨⟨4, false⟩, ⟨.preserve, .preserve⟩, false⟩ "a;b;\r".toList
        = .ok "a;\nb;".toList ∧
      Style.format ⟨⟨4, false⟩, ⟨.preserve, .preserve⟩, false⟩ "\nc".toList = .ok "c;".toList ∧
      ¬∃ eol, Style.format ⟨⟨4, false⟩, ⟨.preserve, .preserve⟩, false⟩
          ("a;b;\r".toList ++ "\nc".toList)
        = .ok ("a;\nb;".toList ++ eol ++ "c;".toList) := by
  refine ⟨by decide +kernel, by decide +kernel, by decide +kernel, by decide +kernel,
    by decide +kernel, by decide +kernel, by decide +kernel, by decide +kernel, by decide +kernel, ?_⟩
  rintro ⟨eol, h⟩
  have hboth : Style.format ⟨⟨4, false⟩, ⟨.preserve, .preserve⟩, false⟩
      ("a;b;\r".toList ++ "\nc".toList) = .ok "a;\r\nb;\r\nc;".toList := by decide +kernel
  rw [hboth, Except.ok.injEq] at h
  -- The texts differ in the line break behind the first statement.
  have hthird := congrArg (fun t : Text => t[2]?) h
  simp at hthird

end Script

end SqlScript
