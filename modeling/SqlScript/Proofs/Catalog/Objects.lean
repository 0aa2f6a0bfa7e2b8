import SqlScript.Catalog.Outline
import SqlScript.Catalog.Reference
import SqlScript.Proofs.Layout.Comment
import SqlScript.Proofs.Script.Locate
import SqlScript.Proofs.Script.Place

namespace SqlScript

/-!
# The objects of a script

The outline of a script, its table of objects and the names of its changed objects are all about the
same objects, in the order of the text.

* `Group.flatMap_entries_outline` — the outline of a group has the entries of its statements, however
  they are arranged;
* `Statement.exists_name` — an object has the text of a token as its name;
* `Script.starts_statements` — each statement starts behind the start of the one before it;
* `Script.objects_ofText` — how the outline, the table and the names belong together.
-/

/-! ### Rows -/

namespace Table

/-- The cells of a row. -/
def row (t : Table) (n : Nat) : List Cell := t.filterMap fun s => s.values[n]?

/-- The rows of the table. -/
def allRows (t : Table) : List (List Cell) := (List.range t.rows).map t.row

end Table

/-- The cells of the row for the object. -/
def LocatedReference.cells (r : LocatedReference) : List Cell :=
  [.text r.reference.verb.name.toList, .text r.reference.objectType,
   r.reference.object.schema.elim .missing .text, r.reference.object.name.elim .missing .text,
   .integer r.span.start, .integer r.span.stop]

/-- The table has one row for each object. -/
theorem Script.allRows_referenceTable (s : Script) :
    s.referenceTable.allRows = s.references.map LocatedReference.cells := by
  have hrows : s.referenceTable.rows = s.references.length := List.length_map ..
  refine List.ext_getElem (by simp [Table.allRows, hrows]) fun n hn hn' => ?_
  have hlength : n < s.references.length := by simpa using hn'
  simp [Table.allRows, Table.row, referenceTable, LocatedReference.cells, hlength]

/-! ### Entries -/

/-- Whether the object is created, declared or altered by one of the verbs. -/
def LocatedReference.hasVerb (r : LocatedReference) (verbs : List Verb) : Bool :=
  verbs.contains r.reference.verb

/-- The entry of the outline tells what the object is, its name, or its schema if it has no name of
    its own, and the place of the statement that is about it. -/
structure Entry.Describes (e : Entry) (r : LocatedReference) : Prop where
  kind : EntryKind.ofVerb? r.reference.verb = some e.kind
  detail : e.detail = r.reference.objectType
  name : some e.name = r.reference.object.name.or r.reference.object.schema
  span : e.span = r.span

/-- The entry of the item and those of its body, none of which has a body. -/
def OutlineItem.entries (i : OutlineItem) : List Entry := i.entry :: i.body

/-- The entries of the outline, each one in front of those of its body. -/
def Script.entries (s : Script) : List Entry := s.outline.flatMap OutlineItem.entries

/-- A group has an entry for each of its statements that has one, in order. -/
theorem Group.flatMap_entries_outline (g : Group) :
    g.outline.flatMap OutlineItem.entries = g.statements.filterMap Statement.entry? := by
  have hstatements : g.statements = g.first :: g.statements.tail :=
    (List.cons_head_tail g.nonempty).symm
  rw [hstatements, List.filterMap_cons]
  unfold outline
  cases g.first.entry? with
  | none => simp [OutlineItem.entries, List.flatMap_map]
  | some entry => simp [OutlineItem.entries]

/-- A script has an entry for each of its statements that has one, in order. -/
theorem Script.entries_ofText (t : Text) :
    (ofText t).entries = (ofText t).statements.filterMap Statement.entry? := by
  have hgroups : (ofText t).groups.flatMap (·.statements) = (ofText t).statements :=
    Group.flatMap_ofStatements _
  rw [entries, outline, List.flatMap_assoc, ← hgroups, List.filterMap_flatMap]
  exact congrArg (List.flatMap · _) (funext Group.flatMap_entries_outline)

/-! ### Names -/

/-- A name that is read is the text of a token. -/
theorem ObjectName.exists_name_of_read? {ts : List Token} {o : ObjectName} (h : read? ts = some o) :
    ∃ u ∈ ts, o.name = some u.text := by
  cases ts with
  | nil => simp [read?] at h
  | cons first rest =>
    simp only [read?] at h
    split at h
    · contradiction
    · split at h
      · split at h
        · obtain rfl := Option.some.inj h
          exact ⟨_, by simp, rfl⟩
        · obtain rfl := Option.some.inj h
          exact ⟨first, by simp, rfl⟩
      · obtain rfl := Option.some.inj h
        exact ⟨first, by simp, rfl⟩

/-- An object has the text of a token of its statement as its name, or as its schema if it has no name
    of its own. -/
theorem Statement.exists_name {s : Statement} {r : Reference} (h : s.reference? = some r) :
    ∃ u ∈ s.tokens, r.object.name.or r.object.schema = some u.text := by
  have hnamed : ∀ verb, namedReference? verb s.operands = some r →
      ∃ u ∈ s.operands, r.object.name.or r.object.schema = some u.text := by
    intro verb hr
    obtain ⟨o, ho, hr⟩ := Option.map_eq_some_iff.mp hr
    obtain ⟨u, hu, hname⟩ := ObjectName.exists_name_of_read? ho
    refine ⟨u, (List.dropWhile_sublist _).subset (List.mem_of_mem_drop hu), ?_⟩
    -- The name of a schema is listed as the schema.
    split at hr <;> subst hr <;> simp [hname]
  have hdeclared : declaredReference? s.operands = some r →
      ∃ u ∈ s.operands, r.object.name.or r.object.schema = some u.text := by
    intro hr
    cases hoperands : s.operands with
    | nil => simp [hoperands, declaredReference?] at hr
    | cons u rest =>
      simp only [hoperands, declaredReference?] at hr
      split at hr
      · contradiction
      · obtain rfl := Option.some.inj hr
        exact ⟨u, by simp, rfl⟩
  obtain ⟨u, hu, hname⟩ : ∃ u ∈ s.operands, r.object.name.or r.object.schema = some u.text := by
    unfold reference? at h
    split at h
    · exact hnamed _ h
    · exact hnamed _ h
    · split at h
      · exact hdeclared h
      · exact hnamed _ h
    · contradiction
  exact ⟨u, mem_tokens_of_mem_operands hu, hname⟩

/-- An object is listed under its name, or under its schema if it has no name of its own. -/
theorem Reference.title_eq {r : Reference} {name : Text} (hname : name ≠ [])
    (h : r.object.name.or r.object.schema = some name) : r.title = name := by
  have hkept : (some name).filter (fun t => !t.isEmpty) = some name := by simp [Option.filter, hname]
  unfold title
  cases hn : r.object.name with
  | some n =>
    obtain rfl : n = name := by simpa [hn] using h
    simp [hkept]
  | none =>
    have hschema : r.object.schema = some name := by simpa [hn] using h
    simp [hschema, hkept]

/-- The entry of a statement describes the object that the statement is about. -/
theorem Statement.describes_entry {s : Statement} {r : LocatedReference} {e : Entry}
    (htokens : ∀ u ∈ s.tokens, u.text ≠ []) (hr : s.located? = some r) (he : s.entry? = some e) :
    e.Describes r := by
  obtain ⟨r, href, rfl⟩ := Option.map_eq_some_iff.mp hr
  obtain ⟨u, hu, hname⟩ := exists_name href
  unfold entry? at he
  rw [href, Option.bind_some] at he
  obtain ⟨kind, hkind, rfl⟩ := Option.map_eq_some_iff.mp he
  refine ⟨hkind, rfl, ?_, rfl⟩
  rw [hname]
  exact congrArg some (Reference.title_eq (htokens u hu) hname)

/-- A statement has no entry if and only if it is about no object that is created or declared. -/
theorem Statement.entry?_eq_none_iff {s : Statement} :
    s.entry? = none ↔ ∀ r, s.located? = some r → r.hasVerb [.CREATE, .DECLARE] = false := by
  unfold entry? located?
  cases s.reference? with
  | none => simp
  | some r => cases hv : r.verb <;> simp [LocatedReference.hasVerb, EntryKind.ofVerb?, hv]

/-! ### Statements -/

/-- What is found in each element that satisfies `p`, and in no other one, is found in order. -/
theorem forall₂_filterMap_filter {α β γ : Type} {f : α → Option β} {g : α → Option γ} {p : γ → Bool}
    {R : β → γ → Prop} {l : List α}
    (hsome : ∀ a ∈ l, ∀ c, g a = some c → p c = true → ∃ b, f a = some b ∧ R b c)
    (hnone : ∀ a ∈ l, (∀ c, g a = some c → p c = false) → f a = none) :
    List.Forall₂ R (l.filterMap f) ((l.filterMap g).filter p) := by
  induction l with
  | nil => exact .nil
  | cons a rest ih =>
    have ih := ih (fun b hb => hsome b (List.mem_cons_of_mem a hb))
      fun b hb => hnone b (List.mem_cons_of_mem a hb)
    by_cases h : ∃ c, g a = some c ∧ p c = true
    · obtain ⟨c, hc, hp⟩ := h
      obtain ⟨b, hb, hR⟩ := hsome a (List.mem_cons_self ..) c hc hp
      rw [List.filterMap_cons_some hb, List.filterMap_cons_some hc, List.filter_cons_of_pos hp]
      exact .cons hR ih
    · have hp : ∀ c, g a = some c → p c = false := by simpa using h
      rw [List.filterMap_cons_none (hnone a (List.mem_cons_self ..) hp)]
      cases hg : g a with
      | none => rwa [List.filterMap_cons_none hg]
      | some c =>
        have hc : ¬ p c = true := by simp [hp c hg]
        rwa [List.filterMap_cons_some hg, List.filter_cons_of_neg hc]

namespace Script

/-- Each statement starts behind the start of the one before it. -/
theorem starts_statements (t : Text) :
    (ofText t).statements.Pairwise fun s s' => s.span.start < s'.span.start :=
  (disjoint_statements t).imp_of_mem fun {s s'} hs _ h => by
    have := s.reaches.start_lt_stop (inOrder_of_mem_statements hs)
    omega

/-- The places of the objects are those of their statements. -/
theorem spans_references_sublist (s : Script) :
    (s.references.map (·.span)).Sublist (s.statements.map (·.span)) := by
  unfold references
  induction s.statements with
  | nil => exact .slnil
  | cons st rest ih =>
    cases hr : st.located? with
    | none =>
      rw [List.filterMap_cons_none hr, List.map_cons]
      exact ih.cons _
    | some r =>
      obtain ⟨r, -, rfl⟩ := Option.map_eq_some_iff.mp hr
      rw [List.filterMap_cons_some hr, List.map_cons, List.map_cons]
      exact ih.cons_cons _

/-- The changed objects are known by the names of those that are created or altered. -/
theorem mem_changedNames {s : Script} {k : Text} :
    k ∈ s.changedNames ↔ k ≠ [] ∧
      ∃ r ∈ s.references, r.hasVerb [.CREATE, .ALTER] = true ∧ r.reference.storedName? = some k := by
  have hchanged : ∀ st : Statement, st.changedName? = some k ↔
      ∃ r ∈ st.located?, r.hasVerb [.CREATE, .ALTER] = true ∧ r.reference.storedName? = some k := by
    intro st
    unfold Statement.changedName? Statement.located?
    cases st.reference? with
    | none => simp
    | some r => cases hv : r.verb <;> simp [LocatedReference.hasVerb, hv]
  have hmem : k ∈ s.changedNames ↔ (∃ st ∈ s.statements, st.changedName? = some k) ∧ k ≠ [] := by
    simp [changedNames, Text.mem_listed, List.mem_filter, List.mem_filterMap]
  rw [hmem, and_comm]
  refine and_congr_right fun _ => ?_
  constructor
  · rintro ⟨st, hst, hk⟩
    obtain ⟨r, hr, hverb⟩ := (hchanged st).mp hk
    exact ⟨r, List.mem_filterMap.mpr ⟨st, hst, hr⟩, hverb⟩
  · rintro ⟨r, hr, hverb⟩
    obtain ⟨st, hst, hr⟩ := List.mem_filterMap.mp hr
    exact ⟨st, hst, (hchanged st).mpr ⟨r, hr, hverb⟩⟩

/-! ### The outline, the table and the names -/

/-- The table has one row for each object that a statement creates, declares or alters, at most one
    for a statement, in the order of the text. The outline describes those that are created or
    declared, each one once and in this order, and nothing else. The names of the changed objects are
    those of the ones that are created or altered, as the database knows them, each name once. -/
theorem objects_ofText (t : Text) :
    (ofText t).referenceTable.allRows = (ofText t).references.map LocatedReference.cells ∧
      List.Forall₂ Entry.Describes (ofText t).entries
        ((ofText t).references.filter fun r => r.hasVerb [.CREATE, .DECLARE]) ∧
      ((ofText t).references.map (·.span)).Sublist ((ofText t).statements.map (·.span)) ∧
      (ofText t).references.Pairwise (fun r q => r.span.start < q.span.start) ∧
      (ofText t).changedNames.Pairwise (fun k l => Text.precedes k l = true) ∧
      ∀ k, k ∈ (ofText t).changedNames ↔ k ≠ [] ∧
        ∃ r ∈ (ofText t).references, r.hasVerb [.CREATE, .ALTER] = true ∧
          r.reference.storedName? = some k := by
  have hspans := spans_references_sublist (ofText t)
  have hstarts : ((ofText t).references.map (·.span)).Pairwise fun a b => a.start < b.start :=
    ((starts_statements t).map Statement.span fun _ _ h => h).sublist hspans
  have htokens : ∀ s ∈ (ofText t).statements, ∀ u ∈ s.tokens, u.text ≠ [] := by
    intro s hs u hu hnil
    have hscan : u ∈ Token.scan t := Statement.mem_of_mem_tokens hs hu
    simpa [hnil, Text.isBlank] using Token.not_isBlank_of_mem_scan hscan
  refine ⟨allRows_referenceTable _, ?_, hspans,
    hstarts.of_map LocatedReference.span fun _ _ h => h, Text.pairwise_listed _,
    fun k => mem_changedNames⟩
  rw [entries_ofText]
  refine forall₂_filterMap_filter (fun s hs r hr hverb => ?_) fun s hs hverb => ?_
  · -- An object that is created or declared has an entry.
    have hentry : s.entry? ≠ none := fun hnone => by
      rw [Statement.entry?_eq_none_iff.mp hnone r hr] at hverb
      exact absurd hverb (by decide)
    obtain ⟨e, he⟩ := Option.ne_none_iff_exists'.mp hentry
    exact ⟨e, he, Statement.describes_entry (htokens s hs) hr he⟩
  · exact Statement.entry?_eq_none_iff.mpr hverb

end Script

end SqlScript
