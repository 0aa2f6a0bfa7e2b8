import Mathlib.Tactic.Common
import SqlScript.Statement.Reference
import SqlScript.Token.Lexer

namespace SqlScript

/-!
# How statements refer to objects

The tokens behind a verb are words for the kind of object, a check for existence, which can be left out,
and the name of the object. What is read of them is what this grammar asks for, however many comments
there are and wherever the tokens end.

* `IsTypePhrase`, `IsCheckPhrase` and `ObjectName.IsNamed` — the parts, each with what can follow it;
* `Reference.IsNamed` — what a verb and the tokens behind it refer to;
* `Statement.reference?_eq_iff` — the object of a statement is the one that the grammar tells.
-/

/-! ### Words for the kind of object -/

/-- The words for the kind of object in front of other tokens: as many as there are. -/
structure IsTypePhrase (kinds rest : List Token) : Prop where
  words : ∀ u ∈ kinds, u.isObjectTypeWord = true
  longest : ∀ u ∈ rest.head?, u.isObjectTypeWord = false

/-- All words for the kind of an object in front of a sequence make a phrase. -/
theorem isTypePhrase_takeWhile (ts : List Token) :
    IsTypePhrase (ts.takeWhile Token.isObjectTypeWord) (ts.dropWhile Token.isObjectTypeWord) where
  words := List.all_eq_true.mp List.all_takeWhile
  longest := by
    intro u hu
    have := List.head?_dropWhile_not Token.isObjectTypeWord ts
    rw [hu] at this
    simpa using this

namespace IsTypePhrase

variable {kinds rest : List Token}

/-- A phrase is all that is taken from the front of the sequence. -/
theorem takeWhile_eq (h : IsTypePhrase kinds rest) :
    (kinds ++ rest).takeWhile Token.isObjectTypeWord = kinds := by
  rw [List.takeWhile_append_of_pos h.words]
  cases rest with
  | nil => rw [List.takeWhile_nil, List.append_nil]
  | cons u rest =>
    rw [List.takeWhile_cons_of_neg (by simp [h.longest u (by simp)]), List.append_nil]

/-- What is behind a phrase is left when it is taken from the front. -/
theorem dropWhile_eq (h : IsTypePhrase kinds rest) :
    (kinds ++ rest).dropWhile Token.isObjectTypeWord = rest := by
  rw [List.dropWhile_append_of_pos h.words]
  cases rest with
  | nil => rfl
  | cons u rest => rw [List.dropWhile_cons_of_neg (by simp [h.longest u (by simp)])]

end IsTypePhrase

/-! ### Checks for existence -/

/-- The checks for existence. -/
inductive IsCheck : List Token → Prop where
  | ifExists {i e : Token} : i.spells "IF" = true → e.spells "EXISTS" = true → IsCheck [i, e]
  | ifNotExists {i n e : Token} : i.spells "IF" = true → n.spells "NOT" = true →
      e.spells "EXISTS" = true → IsCheck [i, n, e]

/-- A check for existence in front of other tokens, or nothing where there is no check. -/
inductive IsCheckPhrase : List Token → List Token → Prop where
  | check {ts rest : List Token} : IsCheck ts → IsCheckPhrase ts rest
  | none {rest : List Token} : (∀ ts more, IsCheck ts → rest ≠ ts ++ more) → IsCheckPhrase [] rest

/-- There is no check in front of tokens that do not start with `IF`. -/
theorem isCheckPhrase_nil {rest : List Token} (h : ∀ u ∈ rest.head?, u.spells "IF" = false) :
    IsCheckPhrase [] rest := by
  refine .none fun ts more hcheck hrest => ?_
  obtain ⟨i, us, rfl, hi⟩ : ∃ i us, ts = i :: us ∧ i.spells "IF" = true := by
    cases hcheck with
    | ifExists hi => exact ⟨_, _, rfl, hi⟩
    | ifNotExists hi => exact ⟨_, _, rfl, hi⟩
  rw [h i (by rw [hrest]; rfl)] at hi
  contradiction

/-- A token has a word for its key when it spells it. -/
theorem Token.key_eq_iff_spells {t : Token} {w : String} :
    t.key = w.toList ↔ t.spells w = true := by
  rw [spells, beq_iff_eq]

/-- A check is found in full, whatever is behind it. -/
theorem IsCheck.existenceCheck_append {ts : List Token} (h : IsCheck ts) (rest : List Token) :
    existenceCheck (ts ++ rest) = ts.length := by
  cases h with
  | @ifExists i e hi he =>
    rw [← Token.key_eq_iff_spells] at hi he
    cases rest <;> simp [existenceCheck, hi, he]
  | ifNotExists hi hn he =>
    rw [← Token.key_eq_iff_spells] at hi hn he
    simp [existenceCheck, hi, hn, he]

/-- Where a check is found, there is one. -/
theorem exists_isCheck {ts : List Token} (h : existenceCheck ts ≠ 0) :
    ∃ check rest, ts = check ++ rest ∧ IsCheck check := by
  unfold existenceCheck at h
  simp only at h
  split at h
  next hwords =>
    obtain ⟨i, us, hi, hif, hus⟩ := List.map_eq_cons_iff.mp hwords
    obtain ⟨n, us, rfl, hnot, hus⟩ := List.map_eq_cons_iff.mp hus
    obtain ⟨e, us, rfl, hexists, hus⟩ := List.map_eq_cons_iff.mp hus
    obtain rfl := List.map_eq_nil_iff.mp hus
    refine ⟨[i, n, e], ts.drop 3, by rw [← hi, List.take_append_drop], ?_⟩
    exact .ifNotExists (Token.key_eq_iff_spells.mp hif) (Token.key_eq_iff_spells.mp hnot)
      (Token.key_eq_iff_spells.mp hexists)
  next =>
    split at h
    next hwords =>
      rw [← List.map_take, List.take_take] at hwords
      obtain ⟨i, us, hi, hif, hus⟩ := List.map_eq_cons_iff.mp hwords
      obtain ⟨e, us, rfl, hexists, hus⟩ := List.map_eq_cons_iff.mp hus
      obtain rfl := List.map_eq_nil_iff.mp hus
      refine ⟨[i, e], ts.drop 2, ?_, ?_⟩
      · rw [← hi]
        exact (List.take_append_drop 2 ts).symm
      · exact .ifExists (Token.key_eq_iff_spells.mp hif) (Token.key_eq_iff_spells.mp hexists)
    next => exact absurd rfl h

/-- As many tokens are taken for a check as there are in it. -/
theorem existenceCheck_append_iff {check rest : List Token} :
    existenceCheck (check ++ rest) = check.length ↔ IsCheckPhrase check rest := by
  constructor
  · intro h
    -- A check that is found where none was taken would count its tokens.
    by_cases hnil : check = []
    · subst hnil
      refine .none fun ts more hts hrest => ?_
      rw [List.nil_append, hrest, hts.existenceCheck_append] at h
      cases hts <;> contradiction
    · have hne : existenceCheck (check ++ rest) ≠ 0 := by simpa [h] using hnil
      obtain ⟨ts, more, hsplit, hts⟩ := exists_isCheck hne
      rw [hsplit, hts.existenceCheck_append] at h
      obtain rfl := (List.append_inj hsplit h.symm).1
      exact .check hts
  · rintro (hts | hnone)
    · exact hts.existenceCheck_append rest
    · by_contra hne
      obtain ⟨ts, more, hsplit, hts⟩ := exists_isCheck hne
      exact hnone ts more hts hsplit

/-- The tokens up to the name are split like this. -/
theorem isCheckPhrase_take (ts : List Token) :
    IsCheckPhrase (ts.take (existenceCheck ts)) (ts.drop (existenceCheck ts)) := by
  rw [← existenceCheck_append_iff, List.take_append_drop, List.length_take]
  by_cases hzero : existenceCheck ts = 0
  · rw [hzero, Nat.zero_min]
  · obtain ⟨check, rest, rfl, hcheck⟩ := exists_isCheck hzero
    rw [hcheck.existenceCheck_append, List.length_append]
    omega

/-! ### Names -/

/-- The name at the front of a sequence of tokens: with a schema where a dot or a slash and another
    name follow it, and none where there is no name at all. -/
inductive ObjectName.IsNamed : List Token → Option ObjectName → Prop where
  | qualified {first mark second : Token} {rest : List Token} : first.kind.isName = true →
      mark.isQualifierMark = true → second.kind.isName = true →
      IsNamed (first :: mark :: second :: rest) (some ⟨some first.text, some second.text⟩)
  | plain {first : Token} {rest : List Token} : first.kind.isName = true →
      (∀ mark second more, rest = mark :: second :: more → mark.isQualifierMark = true →
        second.kind.isName = false) →
      IsNamed (first :: rest) (some ⟨none, some first.text⟩)
  | missing {ts : List Token} : (∀ u ∈ ts.head?, u.kind.isName = false) → IsNamed ts none

namespace ObjectName

/-- The name that is read of some tokens is the one that they have. -/
theorem isNamed_read? (ts : List Token) : IsNamed ts (read? ts) := by
  fun_cases read? ts with
  | case1 => exact .missing (by simp)
  | case2 first rest hfirst => exact .missing (by simpa using hfirst)
  | case3 first hfirst mark second rest hboth =>
    obtain ⟨hmark, hsecond⟩ := Bool.and_eq_true_iff.mp hboth
    exact .qualified (by simpa using hfirst) hmark hsecond
  | case4 first hfirst mark second rest hboth =>
    refine .plain (by simpa using hfirst) fun m s more hrest hmark => ?_
    obtain ⟨rfl, rfl, rfl⟩ : mark = m ∧ second = s ∧ rest = more := by simpa using hrest
    simpa [hmark] using hboth
  | case5 first rest hfirst hrest =>
    exact .plain (by simpa using hfirst) fun m s more heq => absurd heq (hrest m s more)

/-- Tokens have no more than one name. -/
theorem IsNamed.read?_eq {ts : List Token} {o : Option ObjectName} (h : IsNamed ts o) :
    read? ts = o := by
  cases h with
  | qualified hfirst hmark hsecond => simp [read?, hfirst, hmark, hsecond]
  | @plain first rest hfirst hrest =>
    match rest, hrest with
    | [], _ => simp [read?, hfirst]
    | [_], _ => simp [read?, hfirst]
    | mark :: second :: more, hrest =>
      have hboth : (mark.isQualifierMark && second.kind.isName) = false := by
        cases hmark : mark.isQualifierMark with
        | true => rw [hrest mark second more rfl hmark, Bool.and_false]
        | false => rw [Bool.false_and]
      simp [read?, hfirst, hboth]
  | missing hnone =>
    cases ts with
    | nil => rfl
    | cons first rest => simp [read?, hnone first (by simp)]

end ObjectName

/-! ### References -/

/-- The words that tell the kind of object, as they are kept. -/
def objectTypeOf (kinds : List Token) : Text :=
  Text.join [' '] ((kinds.map Token.key).filter fun w => !isOneOf replaceWords w)

/-- The object of the name, when these words tell its kind. A schema is kept as such and has no name of
    its own. -/
def Reference.ofName (verb : Verb) (kinds : List Token) (o : ObjectName) : Reference :=
  if objectTypeOf kinds = "SCHEMA".toList then ⟨verb, objectTypeOf kinds, o.name, none⟩
  else ⟨verb, objectTypeOf kinds, o⟩

/-- What a verb and the tokens behind it refer to: there are words for the kind of object, a check for
    existence or none, and a name or none. -/
inductive Reference.IsNamed (verb : Verb) : List Token → Option Reference → Prop where
  | name {kinds check rest : List Token} {o : Option ObjectName} :
      IsTypePhrase kinds (check ++ rest) → IsCheckPhrase check rest → ObjectName.IsNamed rest o →
      IsNamed verb (kinds ++ (check ++ rest)) (o.map (ofName verb kinds))

namespace Statement

variable {verb : Verb} {ts : List Token} {r : Option Reference}

/-- All tokens behind a verb are read by the grammar. -/
theorem isNamed_namedReference? (verb : Verb) (ts : List Token) :
    Reference.IsNamed verb ts (namedReference? verb ts) := by
  have hcheck := isCheckPhrase_take (ts.dropWhile Token.isObjectTypeWord)
  have hkinds := isTypePhrase_takeWhile ts
  rw [← List.take_append_drop (existenceCheck (ts.dropWhile Token.isObjectTypeWord))
    (ts.dropWhile Token.isObjectTypeWord)] at hkinds
  have hnamed : Reference.IsNamed verb _ _ := .name hkinds hcheck (ObjectName.isNamed_read? _)
  rw [List.take_append_drop, List.takeWhile_append_dropWhile] at hnamed
  exact hnamed

/-- What the tokens behind a verb refer to by the grammar is what is read of them. -/
theorem namedReference?_eq (h : Reference.IsNamed verb ts r) : namedReference? verb ts = r := by
  obtain ⟨hkinds, hcheck, ho⟩ := h
  unfold namedReference? typeWords
  simp only [hkinds.takeWhile_eq, hkinds.dropWhile_eq, existenceCheck_append_iff.mpr hcheck,
    List.drop_left, ho.read?_eq]
  rfl

/-- What is created or altered has a name behind the words for its kind, and so has what is declared,
    when there is such a word. -/
theorem reference?_eq_namedReference? {s : Statement} (hv : s.verb? = some verb)
    (hverb : verb = .CREATE ∨ verb = .ALTER ∨ verb = .DECLARE ∧
      ∃ u ∈ s.operands.takeWhile Token.isObjectTypeWord, isOneOf replaceWords u.key = false) :
    s.reference? = namedReference? verb s.operands := by
  rcases hverb with rfl | rfl | ⟨rfl, u, hu, hkind⟩
  · simp [reference?, hv]
  · simp [reference?, hv]
  · have hmem : u.key ∈ typeWords s.operands :=
      List.mem_filter.mpr ⟨List.mem_map_of_mem hu, by simp [hkind]⟩
    have hempty : (typeWords s.operands).isEmpty = false := by
      simpa using List.ne_nil_of_mem hmem
    simp [reference?, hv, hempty]

/-- A statement that creates or alters an object, or declares one behind a word for its kind, refers to
    the object that the grammar tells, and to nothing else. -/
theorem reference?_eq_iff {s : Statement} (hv : s.verb? = some verb)
    (hverb : verb = .CREATE ∨ verb = .ALTER ∨ verb = .DECLARE ∧
      ∃ u ∈ s.operands.takeWhile Token.isObjectTypeWord, isOneOf replaceWords u.key = false) :
    s.reference? = r ↔ Reference.IsNamed verb s.operands r := by
  rw [reference?_eq_namedReference? hv hverb]
  refine ⟨?_, namedReference?_eq⟩
  rintro rfl
  exact isNamed_namedReference? verb s.operands

/-- A table that is declared with a label, comments and a check, whose schema is delimited and spells a
    word for a kind. -/
theorem reference?_eq_iff_declare :
    let s : Statement :=
      ⟨Token.scan "l: declare -- a\n Global /**/ temporary table if Not exists \"VIEW\" / index.b".toList,
        by decide +kernel⟩
    let r : Reference := ⟨.DECLARE, "GLOBAL TEMPORARY TABLE".toList, some "\"VIEW\"".toList,
      some "index".toList⟩
    s.verb? = some .DECLARE ∧
      (∃ u ∈ s.operands.takeWhile Token.isObjectTypeWord, isOneOf replaceWords u.key = false) ∧
      s.reference? = some r ∧
      (s.reference? = some r ↔ Reference.IsNamed .DECLARE s.operands (some r)) := by
  intro s r
  have hv : s.verb? = some .DECLARE := by decide +kernel
  have hkind : ∃ u ∈ s.operands.takeWhile Token.isObjectTypeWord,
      isOneOf replaceWords u.key = false := by decide +kernel
  have hreference : s.reference? = some r := by decide +kernel
  exact ⟨hv, hkind, hreference, reference?_eq_iff hv (.inr (.inr ⟨rfl, hkind⟩))⟩

end Statement

end SqlScript
