import Mathlib.Data.List.Basic
import SqlScript.Proofs.Layout.Gather
import SqlScript.Proofs.Script.Cut
import SqlScript.Proofs.Script.Recovery

namespace SqlScript

/-!
# Statements that are written again

A statement is written with a semicolon behind it, unless it opens a body or there is nothing in it
but comments. Whether a script is read back when its statements are written like this is a matter of
where it has its semicolons; a script of the grammar has them in the same places.

* `Statement.written` — the tokens of a statement as it is written;
* `Statement.AreReadBack` — whether statements, written one after the other, are read as themselves;
* `IsScript.written` — a script of the grammar is one of the same statements when it is written
  again;
* `IsScript.areReadBack` — the statements of such a script are read back.
-/

namespace Statement

/-- The statement as it is written: with a semicolon behind it, unless it opens a body or consists
    of comments. -/
def written (s : Statement) : List Token :=
  s.tokens ++ if s.isTerminated then [.placed .semicolon [';'] 0] else []

/-- Whether the statements, written one after the other, are read as they are. -/
def AreReadBack (ss : List Statement) : Prop := ofTokens (ss.flatMap written) = ss

instance (ss : List Statement) : Decidable (AreReadBack ss) := inferInstanceAs (Decidable (_ = _))

variable {s : Statement}

/-- A statement that is ended is written with a semicolon. -/
theorem written_of_isTerminated (h : s.isTerminated = true) :
    s.written = s.tokens ++ [.placed .semicolon [';'] 0] := by
  rw [written, if_pos h]

/-- A statement that is not ended is written as it is. -/
theorem written_of_not_isTerminated (h : s.isTerminated = false) : s.written = s.tokens := by
  rw [written, h]
  exact List.append_nil _

/-- A statement that opens a body is written as it is. -/
theorem written_of_isSome_opener? (h : s.opener?.isSome = true) : s.written = s.tokens := by
  refine written_of_not_isTerminated ?_
  rw [isTerminated, Option.isNone_eq_false_iff.mpr h, Bool.and_false]

/-- The semicolon behind a statement is like one of a text. -/
theorem isRead_semicolon : (Token.placed .semicolon [';'] 0).IsRead :=
  Token.isRead_of_mem_scan (u := [';']) (by decide +kernel)

/-- The tokens of statements that are written are like those of a text. -/
theorem isRead_written {ss : List Statement} (h : ∀ s ∈ ss, ∀ t ∈ s.tokens, t.IsRead) :
    ∀ t ∈ ss.flatMap written, t.IsRead := by
  intro t ht
  obtain ⟨s, hs, ht⟩ := List.mem_flatMap.mp ht
  rcases List.mem_append.mp ht with ht | ht
  · exact h s hs t ht
  · split at ht
    · exact List.mem_singleton.mp ht ▸ isRead_semicolon
    · exact absurd ht (by simp)

/-- A sentence is ended. -/
theorem isTerminated_sentence (hs : IsSentence s.tokens) (hread : ∀ t ∈ s.tokens, t.IsRead) :
    s.isTerminated = true := by
  have hcomment := hs.part.noComment
  refine isTerminated_iff.mpr ⟨?_, opener?_eq_none hcomment hread hs.part.inert hs.verb⟩
  rw [significant, significant_of_noComment hcomment]
  exact s.nonempty

/-- Comments close no body. -/
theorem closes_of_significant (h : s.significant = []) : s.closes = false := by
  have hverb : s.verb? = none := by
    have hsignificant : Token.significant s.tokens = [] := h
    rw [verb?, governingVerb?, governing?, governed, hsignificant]
    rfl
  simp [closes, closesCompound, closesConditional, hasVerb, hverb, h, hasConditionEnd]

/-- A statement that closes a body is ended, as it opens none. -/
theorem ClosesBody.isTerminated (h : s.ClosesBody) : s.isTerminated = true := by
  have hchange := h.2
  rw [depthChange_of rfl] at hchange
  refine isTerminated_iff.mpr ⟨fun hnil => ?_, ?_⟩
  · rw [closes_of_significant hnil] at hchange
    split at hchange <;> simp at hchange
  · by_contra hopener
    rw [← Option.isNone_iff_eq_none, Bool.not_eq_true, Option.isNone_eq_false_iff] at hopener
    rw [hopener, if_pos rfl] at hchange
    split at hchange <;> omega

/-- A statement that is read as itself in front of some other token, with no semicolon between them,
    opens a body. -/
theorem OpensBody.isSome_opener? {change : Int} (h : s.OpensBody change)
    (hread : ∀ t ∈ s.tokens, t.IsRead) : s.opener?.isSome = true := by
  let comma : Token := .placed .comma [','] 0
  have hcomma : comma.IsRead := Token.isRead_of_mem_scan (u := [',']) (by decide +kernel)
  have hsplit : ofTokens (s.tokens ++ [comma]) = [s, ⟨[comma], by simp⟩] :=
    h.1 [comma] (by decide +kernel)
  have hcuts : Cuts (s.tokens ++ [comma]) (ofTokens (s.tokens ++ [comma])) :=
    cuts_ofTokens fun t ht => (List.mem_append.mp ht).elim (hread t) fun ht => by
      rwa [List.mem_singleton.mp ht]
  rw [hsplit] at hcuts
  generalize hall : s.tokens ++ [comma] = ts at hcuts
  cases hcuts with
  | @semicolon t rest _ hk hrest =>
    -- A semicolon in front would be missing in the statements.
    have hlength := congrArg List.length hrest.flatMap_tokens
    have hle := (unended_sublist Token.kind 0 rest).length_le
    have htotal := congrArg List.length hall
    simp only [List.flatMap_cons, List.flatMap_nil, List.length_append, List.length_cons,
      List.length_nil] at hlength htotal
    omega
  | ended _ _ hk hrest =>
    obtain ⟨rfl, -⟩ := List.cons.inj (List.append_cancel_left hall)
    exact absurd hk (by decide)
  | opening _ _ hopener _ => exact hopener

end Statement

/-! ### Scripts of the grammar -/

/-- The body as it is written. -/
def Body.written (b : Body) : Body :=
  ⟨b.opening, b.nodes.flatten.flatMap Statement.written, b.nodes⟩

/-- A script of the grammar has its semicolons where they are written. -/
theorem IsScript.written {ts : List Token} {nodes : List (List Statement)} (h : IsScript ts nodes)
    (hread : ∀ t ∈ ts, t.IsRead) :
    IsScript (nodes.flatten.flatMap Statement.written) nodes := by
  induction h with
  | nil => exact .nil
  | @simple s semicolon rest nodes hs _ _ ih =>
    have hwritten := Statement.written_of_isTerminated
      (Statement.isTerminated_sentence hs fun t ht => hread t (by simp [ht]))
    have hrest := ih fun t ht => hread t (by simp [ht])
    have hscript : IsScript (s.tokens ++ .placed .semicolon [';'] 0 ::
        nodes.flatten.flatMap Statement.written) ([s] :: nodes) := .simple hs rfl hrest
    rwa [List.flatten_cons, List.singleton_append, List.flatMap_cons, hwritten, List.append_assoc,
      List.singleton_append]
  | @construct first others closing semicolon rest nodes hconstruct hfirst hothers _ _ ihfirst
      ihothers ih =>
    obtain ⟨hparts, hclosing, hrest⟩ := isRead_of_construct hread
    have hother : ∀ b ∈ others, b ∈ first :: others := fun b hb => List.mem_cons_of_mem _ hb
    have hend := Statement.written_of_isTerminated (hconstruct.closesBody hclosing).isTerminated
    -- The statements that open bodies are written without semicolons.
    have hbody : ∀ b ∈ first :: others,
        b.statements.flatMap Statement.written = b.written.allTokens := fun b hb => by
      have hopener : b.opening.opener?.isSome = true := by
        rcases List.mem_cons.mp hb with rfl | hmem
        · exact (hconstruct.opensBody_first (hparts b hb).2.1).isSome_opener? (hparts b hb).2.1
        · exact (hconstruct.opensBody_other (List.mem_map_of_mem hmem)
            (hparts b hb).2.1).isSome_opener? (hparts b hb).2.1
      rw [Body.statements, List.flatMap_cons, Statement.written_of_isSome_opener? hopener]
      rfl
    have hscript : IsScript (first.written.allTokens ++
          ((others.map Body.written).flatMap Body.allTokens ++
            (closing.tokens ++ .placed .semicolon [';'] 0 ::
              nodes.flatten.flatMap Statement.written)))
        ((first.written.statements ++
          ((others.map Body.written).flatMap Body.statements ++ [closing])) :: nodes) := by
      refine .construct ?_ (ihfirst (hparts first (by simp)).2.2) (fun b hb => ?_) rfl
        (ih fun t ht => hrest t (by simp [ht]))
      · rw [List.map_map]
        exact hconstruct
      · obtain ⟨b, hmem, rfl⟩ := List.mem_map.mp hb
        exact ihothers b hmem (hparts b (hother b hmem)).2.2
    have hbodies : (others.flatMap Body.statements).flatMap Statement.written
        = (others.map Body.written).flatMap Body.allTokens := by
      rw [List.flatMap_assoc, List.flatMap_map]
      exact List.flatMap_congr fun b hb => hbody b (hother b hb)
    have hsame : (others.map Body.written).flatMap Body.statements
        = others.flatMap Body.statements := List.flatMap_map ..
    rw [hsame, show first.written.statements = first.statements from rfl] at hscript
    simpa [hbody first (by simp), hbodies, hend] using hscript

/-- The statements of a script of the grammar are read back. -/
theorem IsScript.areReadBack {t : Text} {nodes : List (List Statement)}
    (h : IsScript (Token.scan t) nodes) : Statement.AreReadBack (Script.ofText t).statements := by
  have hread : ∀ u ∈ Token.scan t, u.IsRead := fun u hu => Token.isRead_of_mem_scan hu
  have hstatements : (Script.ofText t).statements = nodes.flatten := (Script.ofText_of_isScript h).1
  have hwritten : ∀ u ∈ nodes.flatten.flatMap Statement.written, u.IsRead :=
    Statement.isRead_written fun s hs u hu => by
      rw [← hstatements] at hs
      exact hread u (Statement.mem_of_mem_tokens hs hu)
  have hsplit := (h.written hread).split hwritten []
  rw [List.append_nil, show Splitter.start.split [] = [] from rfl, List.append_nil] at hsplit
  rw [hstatements]
  exact hsplit

end SqlScript
