import SqlScript.Unicode.CaseBlank

namespace SqlScript.Unicode

/-!
# Settled cases

What a case mapping gives is mapped to itself, so that a text which was written in a case once does
not change when it is written in that case again. This is a property of the tables: no run and no
expansion has anything to do with what another one gives.

* `Settles` — whether a mapping of characters maps what it gives to itself;
* `CaseRun.isSettled` — the test of one run against the tables;
* `upper_upper` and `lower_lower` — the two mappings of texts;
* `eq_of_mem_upperChar` — a character below the letters of ASCII is in no upper case but its own.
-/

/-- Whether the mapping maps what it gives to itself. -/
def Settles (f : Char → List Char) : Prop := ∀ c, ∀ d ∈ f c, f d = [d]

/-! ### Tables -/

/-- The last code point that the run maps to. -/
def CaseRun.targetLast (r : CaseRun) : Nat := r.target + (r.last - r.first)

/-- Whether the run `q` maps nothing that `r` maps to. Runs of every second character can lie
    between one another. The comparisons are those that compute fast, as all pairs of runs are
    tested. -/
def CaseRun.avoids (q r : CaseRun) : Bool :=
  Nat.blt r.targetLast q.first || Nat.blt q.last r.target ||
    (Nat.beq r.stride 2 || Nat.beq r.first r.last) && Nat.beq q.stride 2 &&
      Nat.beq ((r.target + q.first) % 2) 1

/-- Whether what the run maps to is mapped to itself: by `g` within ASCII, and beyond ASCII since
    neither a run nor an expansion names it. -/
def CaseRun.isSettled (g : Char → Char) (runs : List CaseRun) (expansions : List Expansion)
    (r : CaseRun) : Bool :=
  if r.targetLast ≤ lastAscii then r.first == r.last && g (Char.ofNat r.target) == Char.ofNat r.target
  else lastAscii < r.target && runs.all (·.avoids r) &&
    expansions.all fun e => Nat.blt e.1 r.target || Nat.blt r.targetLast e.1

/-- The run of a single code point, as one of those that an expansion maps to. -/
def CaseRun.single (n : Nat) : CaseRun := ⟨n, n, 1, n⟩

/-- The run of one code point maps it to itself. -/
theorem CaseRun.map?_single (n : Nat) : (single n).map? n = some n := by
  simp [map?, single]

/-- A run maps none of the images that it avoids. -/
theorem CaseRun.map?_eq_none {q r : CaseRun} (h : q.avoids r = true) {n m : Nat}
    (hm : r.map? n = some m) : q.map? m = none := by
  obtain ⟨h1, h2, h3⟩ := map?_eq_some hm
  unfold map? at hm ⊢
  split at hm
  · rename_i hr
    refine if_neg fun hq => ?_
    simp only [avoids, Bool.or_eq_true, Bool.and_eq_true, Nat.blt_eq, Nat.beq_eq] at h
    rw [targetLast] at h
    rcases h with (h | h) | ⟨⟨hstride, hq2⟩, hodd⟩
    · omega
    · omega
    · -- The images have one parity, and what `q` maps has the other one.
      have heven : (n - r.first) % 2 = 0 := by
        rcases hstride with hs | hs
        · rw [← hs]; exact hr.2.2
        · omega
      have := hq.2.2
      rw [hq2] at this
      omega
  · exact absurd hm (by simp)

/-- An image of a settled run is mapped to itself, within ASCII and beyond it. -/
theorem mapCase_of_isSettled {g : Char → Char} {runs : List CaseRun} {expansions : List Expansion}
    {r : CaseRun} (hr : r.isSettled g runs expansions = true) {n m : Nat} (hm : r.map? n = some m)
    (hg : g '\x00' = '\x00') :
    (if beyondAscii (Char.ofNat m) then mapCase runs expansions (Char.ofNat m)
      else [g (Char.ofNat m)]) = [Char.ofNat m] := by
  obtain ⟨h1, h2, h3⟩ := CaseRun.map?_eq_some hm
  rcases ofNat_eq_or m with hcode | hzero
  · unfold CaseRun.isSettled CaseRun.targetLast at hr
    split at hr
    · rename_i hascii
      simp only [Bool.and_eq_true, beq_iff_eq] at hr
      obtain rfl : m = r.target := by omega
      rw [if_neg, hr.2]
      simp only [beyondAscii, hcode, decide_eq_true_eq]
      omega
    · simp only [Bool.and_eq_true, decide_eq_true_eq, List.all_eq_true, Bool.or_eq_true] at hr
      obtain ⟨⟨hbeyond, hruns⟩, hexpansions⟩ := hr
      rw [if_pos (by simp only [beyondAscii, hcode, decide_eq_true_eq]; omega)]
      have hx : expansions.find? (fun e => e.1 == (Char.ofNat m).toNat) = none := by
        rw [List.find?_eq_none]
        intro e he
        have := hexpansions e he
        simp only [Nat.blt_eq] at this
        simp only [hcode, beq_iff_eq]
        omega
      have hy : runs.findSome? (fun run => run.map? (Char.ofNat m).toNat) = none := by
        rw [List.findSome?_eq_none_iff, hcode]
        exact fun q hq => CaseRun.map?_eq_none (hruns q hq) hm
      simp [mapCase, hx, hy]
  · rw [hzero, if_neg (by decide), hg]

/-- A mapping settles when its runs and its expansions do, and so does what is within ASCII. -/
theorem settles_ite {g : Char → Char} {runs : List CaseRun} {expansions : List Expansion}
    (hruns : runs.all (·.isSettled g runs expansions) = true)
    (hexpansions : expansions.all (fun e => e.2.all fun n =>
      (CaseRun.single n).isSettled g runs expansions) = true)
    (hascii : (List.range (lastAscii + 1)).all (fun n =>
      !beyondAscii (g (Char.ofNat n)) && g (g (Char.ofNat n)) == g (Char.ofNat n)) = true)
    (hg : g '\x00' = '\x00') :
    Settles fun c => if beyondAscii c then mapCase runs expansions c else [g c] := by
  intro c d hd
  change d ∈ (if beyondAscii c then mapCase runs expansions c else [g c]) at hd
  cases hbeyond : beyondAscii c with
  | true =>
    rw [hbeyond, if_pos rfl] at hd
    rcases mapCase_cases runs expansions c with ⟨e, he, -, h⟩ | ⟨r, hr, m, hm, h⟩ | h
    · rw [h] at hd
      obtain ⟨n, hn, rfl⟩ := List.mem_map.mp hd
      have := List.all_eq_true.mp hexpansions e he
      exact mapCase_of_isSettled (List.all_eq_true.mp this n hn) (CaseRun.map?_single n) hg
    · rw [h] at hd
      obtain rfl := List.mem_singleton.mp hd
      exact mapCase_of_isSettled (List.all_eq_true.mp hruns r hr) hm hg
    · rw [h] at hd
      obtain rfl := List.mem_singleton.mp hd
      simp [hbeyond, h]
  | false =>
    rw [hbeyond, if_neg (by decide)] at hd
    obtain rfl := List.mem_singleton.mp hd
    have := forall_ascii (p := fun c => !beyondAscii (g c) && g (g c) == g c) hascii hbeyond
    rw [Bool.and_eq_true, Bool.not_eq_true', beq_iff_eq] at this
    simp [this.1, this.2]

/-- What is in upper case is its own upper case. -/
theorem settles_upperChar : Settles upperChar :=
  settles_ite (by decide +kernel) (by decide +kernel) (by decide +kernel) (by decide)

/-- What is in lower case is its own lower case. -/
theorem settles_lowerChar : Settles lowerChar :=
  settles_ite (by decide +kernel) (by decide +kernel) (by decide +kernel) (by decide)

/-- A text is put in upper case one character after the other. -/
theorem upper_cons (c : Char) (t : List Char) : upper (c :: t) = upperChar c ++ upper t := rfl

/-- Two texts are put in upper case one after the other. -/
theorem upper_append (t u : List Char) : upper (t ++ u) = upper t ++ upper u := List.flatMap_append

/-- A text that is in upper case already stays as it is. -/
theorem upper_eq_self {t : List Char} (h : ∀ d ∈ t, upperChar d = [d]) : upper t = t := by
  induction t with
  | nil => rfl
  | cons d t ih =>
    rw [upper_cons, h d (by simp), ih fun e he => h e (by simp [he])]
    rfl

/-- What is in upper case stays as it is in upper case. -/
theorem upper_upper (t : List Char) : upper (upper t) = upper t := by
  refine upper_eq_self fun d hd => ?_
  obtain ⟨c, -, hc⟩ := List.mem_flatMap.mp hd
  exact settles_upperChar c d hc

/-- Upper case makes no character below the letters of ASCII. -/
theorem eq_of_mem_upperChar {c d : Char} (h : d ∈ upperChar c) (hpos : 0 < d.toNat)
    (hlow : d.toNat < 0x41) : c = d := by
  have hcode : ∀ n, 0x41 ≤ n → d ≠ Char.ofNat n := fun n hn heq => by
    rw [heq] at hpos hlow
    rcases toNat_ofNat_eq_or n with hcode | hcode <;> omega
  -- No run and no expansion leads below the letters of ASCII.
  have hruns : upperRuns.all (fun r => 0x41 ≤ r.target) = true := by decide +kernel
  have hexpansions : upperExpansions.all (fun e => e.2.all fun n => 0x41 ≤ n) = true := by
    decide +kernel
  unfold upperChar at h
  cases hbeyond : beyondAscii c with
  | true =>
    rw [hbeyond, if_pos rfl] at h
    rcases mapCase_cases upperRuns upperExpansions c with ⟨e, he, -, hc⟩ | ⟨r, hr, m, hm, hc⟩ | hc
    · rw [hc] at h
      obtain ⟨n, hn, heq⟩ := List.mem_map.mp h
      have hle := List.all_eq_true.mp (List.all_eq_true.mp hexpansions e he) n hn
      exact absurd heq.symm (hcode n (by simpa using hle))
    · rw [hc] at h
      have hle := List.all_eq_true.mp hruns r hr
      obtain ⟨-, -, htarget⟩ := CaseRun.map?_eq_some hm
      rw [decide_eq_true_eq] at hle
      exact absurd (List.mem_singleton.mp h) (hcode m (by omega))
    · rw [hc] at h
      exact (List.mem_singleton.mp h).symm
  | false =>
    rw [hbeyond, if_neg (by decide)] at h
    have hascii := forall_ascii (p := fun c => c == c.toUpper || 0x41 ≤ c.toUpper.toNat)
      (by decide +kernel) hbeyond
    rw [← List.mem_singleton.mp h, Bool.or_eq_true, beq_iff_eq, decide_eq_true_eq] at hascii
    exact hascii.resolve_right (by omega)

/-- No lower case is a capital sigma, which is the one character whose lower case depends on where
    it stands. -/
theorem ne_sigma_of_mem_lowerChar {c d : Char} (h : d ∈ lowerChar c) : d ≠ 'Σ' := by
  rintro rfl
  have := settles_lowerChar c 'Σ' h
  exact absurd this (by decide +kernel)

/-- A text without a capital sigma that is in lower case already stays as it is. -/
theorem lowerFrom_eq_self {t : List Char} (h : ∀ d ∈ t, d ≠ 'Σ' ∧ lowerChar d = [d])
    (inWord : Bool) : lowerFrom inWord t = t := by
  induction t generalizing inWord with
  | nil => rfl
  | cons d t ih =>
    obtain ⟨hd, hlower⟩ := h d (by simp)
    rw [lowerFrom, if_neg hd, hlower, ih fun e he => h e (by simp [he])]
    rfl

/-- What is in a text in lower case is no capital sigma, and its own lower case. -/
theorem settled_of_mem_lowerFrom {t : List Char} {inWord : Bool} {d : Char}
    (h : d ∈ lowerFrom inWord t) : d ≠ 'Σ' ∧ lowerChar d = [d] := by
  induction t generalizing inWord with
  | nil => exact absurd h (by simp [lowerFrom])
  | cons c t ih =>
    rw [lowerFrom] at h
    rcases List.mem_append.mp h with h | h
    · split at h
      · -- The two lower cases of a capital sigma are settled.
        split at h <;> obtain rfl := List.mem_singleton.mp h <;> decide +kernel
      · exact ⟨ne_sigma_of_mem_lowerChar h, settles_lowerChar c d h⟩
    · exact ih h

/-- What is in lower case stays as it is in lower case. -/
theorem lower_lower (t : List Char) : lower (lower t) = lower t :=
  lowerFrom_eq_self (fun _ => settled_of_mem_lowerFrom) false

end SqlScript.Unicode
