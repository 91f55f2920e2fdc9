import Resumable.Proofs.TableIndependence

/-!
# Names that are handed out once

A namer tries `stem`, `stem_1`, `stem_2`, … until a name was not handed out before.  It tries
as often as there are used names and takes the next candidate unseen.  **That candidate is
fresh**: the candidates are different strings, a table gives different names to different
strings, and so one more candidate than there are used names cannot all be used.

## Main definitions

* `SlotNamer.WellUsed`: a namer whose used names are distinct, and known to its table.
* `SlotNamer.Hands`: names that are handed out in turn.

## Main statements

* `SlotNamer.fresh_notMem`: what is handed out was not handed out before.
* `SlotNamer.WellUsed.find?_fresh`: a stem that is not taken is not numbered.
* `SlotNamer.Hands.nodup_texts`: names handed out in turn are different strings.
* `SlotNamer.hands_bookkeeping`, `SlotNamer.hands_nameSlots`, `SlotNamer.hands_awaitSpecs`:
  the names of slots are handed out in turn.
-/

namespace Resumable

variable {t names : NameTable} {name : Name} {j : Nat} {taken : List Name}

/-- In a table, a name is found under one string. -/
theorem NameTable.text_eq_of_find? {s s' : String} (h : t.find? s = some name)
    (h' : t.find? s' = some name) : s = s' :=
  (lookup_of_find? h).symm.trans (lookup_of_find? h')

namespace SlotNamer

/-! ### Candidates -/

theorem candidate_succ (base stem : String) (k : Nat) :
    candidate base stem (k + 1) = base ++ stem ++ ("_" ++ (k + 1).repr) := by
  show base ++ stem ++ "_" ++ (k + 1).repr = _
  rw [String.append_assoc]

variable {k : Nat} {base stem : String} {n : SlotNamer}

theorem repr_injective (h : j.repr = k.repr) : j = k := by
  rw [Nat.repr_eq_ofList_toDigits, Nat.repr_eq_ofList_toDigits] at h
  have hdigits := String.ofList_injective h
  rw [← Nat.ofDigitChars_ten_toDigits (n := j), hdigits, Nat.ofDigitChars_ten_toDigits]

/-- The candidates for a stem are different strings. -/
theorem candidate_injective (h : candidate base stem j = candidate base stem k) : j = k := by
  have hlonger : ∀ i, base ++ stem ≠ candidate base stem (i + 1) := by
    intro i heq
    have hlength := congrArg String.length heq
    rw [candidate_succ, String.length_append (base ++ stem),
      String.length_append "_"] at hlength
    have : "_".length = 1 := rfl
    omega
  cases j with
  | zero =>
    cases k with
    | zero => rfl
    | succ k => exact absurd h (hlonger k)
  | succ j =>
    cases k with
    | zero => exact absurd h.symm (hlonger j)
    | succ k =>
      rw [candidate_succ, candidate_succ, String.append_right_inj,
        String.append_right_inj] at h
      exact repr_injective h

/-! ### Fresh names -/

/-- **What a search finds is the name of a candidate**, and those before it were passed over
because they are used. -/
theorem search_first (base stem : String) (used : List Name) (tries k : Nat)
    (names : NameTable) :
    ∃ j, (search base stem used tries k names).2.find? (candidate base stem j) =
        some (search base stem used tries k names).1 ∧
      ∀ i, k ≤ i → i < j → ∃ name ∈ used,
        (search base stem used tries k names).2.find? (candidate base stem i) =
          some name := by
  induction tries generalizing k names with
  | zero =>
    exact ⟨k, names.find?_intern _, fun i hle hlt => absurd hlt (Nat.not_lt_of_le hle)⟩
  | succ tries ih =>
    unfold search
    dsimp only
    split
    case isFalse =>
      exact ⟨k, names.find?_intern _, fun i hle hlt => absurd hlt (Nat.not_lt_of_le hle)⟩
    case isTrue hused =>
      obtain ⟨j, hfound, hpassed⟩ := ih (k + 1) (names.intern (candidate base stem k)).2
      refine ⟨j, hfound, fun i hle hlt => ?_⟩
      rcases Nat.eq_or_lt_of_le hle with rfl | hle
      · exact ⟨_, hused, (precedes_search _ _ _ _ _ _).find? (names.find?_intern _)⟩
      · exact hpassed i hle hlt

section

variable (htaken : ∀ name ∈ taken, ∃ j < k, names.find? (candidate base stem j) = some name)
  (hnodup : taken.Nodup)

include htaken hnodup

/-- A candidate that has not been passed over has another name than those that have. -/
theorem nodup_candidate : ((names.intern (candidate base stem k)).1 :: taken).Nodup := by
  refine List.nodup_cons.mpr ⟨fun hmem => ?_, hnodup⟩
  obtain ⟨j, hj, hfound⟩ := htaken _ hmem
  have heq := NameTable.text_eq_of_find? ((names.precedes_intern _).find? hfound)
    (names.find?_intern _)
  exact absurd (candidate_injective heq) (Nat.ne_of_lt hj)

/-- **A search that has passed over used candidates** finds a name that is not used, if it may
try as often as there are other used names. -/
theorem search_notMem {used : List Name} {tries : Nat} (hsub : taken ⊆ used)
    (hlength : used.length ≤ taken.length + tries) :
    (search base stem used tries k names).1 ∉ used := by
  have hmore := nodup_candidate htaken hnodup
  induction tries generalizing k names taken with
  | zero =>
    -- With this candidate there would be more used names than there are.
    intro hmem
    have hle := hmore.length_le_of_subset (List.cons_subset.mpr ⟨hmem, hsub⟩)
    rw [List.length_cons] at hle
    omega
  | succ tries ih =>
    unfold search
    dsimp only
    split
    case isFalse hunused => exact hunused
    case isTrue hused =>
      have hknown : ∀ name ∈ (names.intern (candidate base stem k)).1 :: taken,
          ∃ j < k + 1, (names.intern (candidate base stem k)).2.find?
            (candidate base stem j) = some name := by
        intro name hname
        rcases List.mem_cons.mp hname with rfl | hname
        · exact ⟨k, Nat.lt_succ_self k, names.find?_intern _⟩
        · obtain ⟨j, hj, hfound⟩ := htaken name hname
          exact ⟨j, Nat.lt_succ_of_lt hj, (names.precedes_intern _).find? hfound⟩
      refine ih hknown hmore (List.cons_subset.mpr ⟨hused, hsub⟩) ?_
        (nodup_candidate hknown hmore)
      rw [List.length_cons]
      omega

end

/-- **What a namer hands out was not handed out before.** -/
theorem fresh_notMem (n : SlotNamer) (stem : String) : (n.fresh stem).1 ∉ n.used := by
  have hnone : ∀ name ∈ ([] : List Name), ∃ j < 0,
    n.names.find? (candidate n.base stem j) = some name :=
    fun _ hname => absurd hname List.not_mem_nil
  exact search_notMem hnone .nil (List.nil_subset _) (Nat.le_of_eq (Nat.zero_add _).symm)

/-- **A namer whose used names are distinct**, and known to its table. -/
structure WellUsed (n : SlotNamer) : Prop where
  distinct : n.used.Nodup
  known : ∀ name ∈ n.used, ∃ text, n.names.find? text = some name

theorem wellUsed_new (names : NameTable) (slotPrefix procedure : String) :
    (new names slotPrefix procedure).WellUsed :=
  ⟨.nil, fun _ hname => absurd hname List.not_mem_nil⟩

/-- A fresh name keeps the used ones distinct. -/
theorem WellUsed.fresh (h : n.WellUsed) (stem : String) : (n.fresh stem).2.WellUsed where
  distinct := List.nodup_cons.mpr ⟨n.fresh_notMem stem, h.distinct⟩
  known := by
    intro name hname
    rcases List.mem_cons.mp hname with rfl | hname
    · obtain ⟨j, hfound, -⟩ := search_first n.base stem n.used n.used.length 0 n.names
      exact ⟨_, hfound⟩
    · obtain ⟨text, hfound⟩ := h.known name hname
      exact ⟨text, (n.precedes_fresh stem).names.find? hfound⟩

/-- The text of a used name is that under which it is found, also later. -/
theorem WellUsed.lookup_eq (h : n.WellUsed) (hname : name ∈ n.used)
    (grown : n.names.Precedes t) {text : String} :
    n.names.lookup name = text ↔ t.find? text = some name := by
  obtain ⟨known, hknown⟩ := h.known name hname
  rw [NameTable.lookup_of_find? hknown]
  exact ⟨fun heq => heq ▸ grown.find? hknown, NameTable.text_eq_of_find? (grown.find? hknown)⟩

/-- **A namer hands out the first candidate** whose text it has not handed out before. -/
theorem WellUsed.fresh_first (h : n.WellUsed) (stem : String) :
    ∃ k, (n.fresh stem).2.names.find? (candidate n.base stem k) = some (n.fresh stem).1 ∧
      candidate n.base stem k ∉ n.used.map n.names.lookup ∧
      ∀ j < k, candidate n.base stem j ∈ n.used.map n.names.lookup := by
  have hgrown := (n.precedes_fresh stem).names
  obtain ⟨k, hfound, hpassed⟩ := search_first n.base stem n.used n.used.length 0 n.names
  refine ⟨k, hfound, fun hmem => ?_, fun j hj => ?_⟩
  · obtain ⟨name, hname, heq⟩ := List.mem_map.mp hmem
    have hsame := Option.some.inj (((h.lookup_eq hname hgrown).mp heq).symm.trans hfound)
    exact n.fresh_notMem stem (hsame ▸ hname)
  · obtain ⟨name, hname, hj⟩ := hpassed j (Nat.zero_le j) hj
    exact List.mem_map.mpr ⟨name, hname, (h.lookup_eq hname hgrown).mpr hj⟩

/-- **A stem that is not taken is not numbered.** -/
theorem WellUsed.find?_fresh (h : n.WellUsed)
    (hfree : ∀ name ∈ n.used, n.names.lookup name ≠ n.base ++ stem) :
    (n.fresh stem).2.names.find? (n.base ++ stem) = some (n.fresh stem).1 := by
  obtain ⟨k, hfound, -, hpassed⟩ := h.fresh_first stem
  cases k with
  | zero => exact hfound
  | succ k =>
    obtain ⟨name, hname, heq⟩ := List.mem_map.mp (hpassed 0 (Nat.succ_pos k))
    exact absurd heq (hfree name hname)

/-! ### Names handed out in turn -/

/-- **Names that a namer hands out in turn**, and the namer after that. -/
inductive Hands : SlotNamer → List Name → SlotNamer → Prop where
  | none (n : SlotNamer) : Hands n [] n
  | next {n n' : SlotNamer} {given : List Name} (stem : String)
    (later : Hands (n.fresh stem).2 given n') :
    Hands n ((n.fresh stem).1 :: given) n'

namespace Hands

variable {n n' n'' : SlotNamer} {given more : List Name}

theorem trans (h : Hands n given n') (h' : Hands n' more n'') :
    Hands n (given ++ more) n'' := by
  induction h with
  | none => exact h'
  | next stem _ ih => exact .next stem (ih h')

variable (h : Hands n given n')

include h

theorem precedes : n.Precedes n' := by
  induction h with
  | none n => exact .refl n
  | next stem _ ih => exact (precedes_fresh _ stem).trans ih

theorem wellUsed (used : n.WellUsed) : n'.WellUsed := by
  induction h with
  | none => exact used
  | next stem _ ih => exact ih (used.fresh stem)

/-- The names are used after that, last one first. -/
theorem used_eq : n'.used = given.reverse ++ n.used := by
  induction h with
  | none => rfl
  | @next n n' given stem later ih =>
    rw [ih, List.reverse_cons, List.append_assoc]
    rfl

/-- **Names handed out in turn are different strings**, in every table that the
namer's table grows into. -/
theorem nodup_texts (used : n.WellUsed) (grown : n'.names.Precedes t) :
    (given.map t.lookup).Nodup := by
  have hused := h.wellUsed used
  have hsub : given.reverse.Sublist n'.used := by
    rw [h.used_eq]
    exact List.sublist_append_left _ _
  have hdistinct : given.Nodup := List.nodup_reverse.mp (hused.distinct.sublist hsub)
  refine hdistinct.map_on fun a ha b hb heq => ?_
  obtain ⟨text, htext⟩ := hused.known a (hsub.subset (List.mem_reverse.mpr ha))
  obtain ⟨text', htext'⟩ := hused.known b (hsub.subset (List.mem_reverse.mpr hb))
  have ha := grown.find? htext
  have hb := grown.find? htext'
  rw [NameTable.lookup_of_find? ha, NameTable.lookup_of_find? hb] at heq
  subst heq
  exact Option.some.inj (ha.symm.trans hb)

end Hands

/-! ### The names of slots -/

theorem hands_bookkeeping (n : SlotNamer) :
    Hands n [n.bookkeeping.1.state, n.bookkeeping.1.status, n.bookkeeping.1.result]
      n.bookkeeping.2 := by
  rw [bookkeeping_eq]
  dsimp only
  exact .next "state" (.next "status" (.next "result" (.none _)))

theorem hands_nameSlots (n : SlotNamer) (vars : List Variable) :
    Hands n ((nameSlots n vars).2.1.map Hoisted.slotName) (nameSlots n vars).2.2 := by
  induction vars generalizing n with
  | nil => exact .none n
  | cons v rest ih =>
    unfold nameSlots
    split
    · exact .next _ (ih _)
    · exact ih n

theorem hands_awaitSpecsFrom (point count : Nat) (n : SlotNamer) (operand : Nat)
    (operands : List Bound.Expr) :
    Hands n ((awaitSpecsFrom point count n operand operands).1.map SlotSpec.name)
      (awaitSpecsFrom point count n operand operands).2 := by
  induction operands generalizing n operand with
  | nil => exact .none n
  | cons e rest ih => exact .next _ (ih _ _)

theorem hands_awaitSpecs (n : SlotNamer) (points : List SuspensionPoint) :
    Hands n ((awaitSpecs n points).1.map SlotSpec.name) (awaitSpecs n points).2 := by
  induction points generalizing n with
  | nil => exact .none n
  | cons q rest ih =>
    have htrans :=
      (hands_awaitSpecsFrom q.index q.kind.awaited.length n 0 q.kind.awaited).trans (ih _)
    rw [← List.map_append] at htrans
    exact htrans

/-- **The names that every machine may have are not numbered.** -/
theorem find?_bookkeeping (unused : n.used = []) :
    n.bookkeeping.2.names.find? (n.base ++ "state") = some n.bookkeeping.1.state ∧
      n.bookkeeping.2.names.find? (n.base ++ "status") = some n.bookkeeping.1.status ∧
      n.bookkeeping.2.names.find? (n.base ++ "result") = some n.bookkeeping.1.result := by
  have hused : n.WellUsed := by
    refine ⟨by rw [unused]; exact .nil, fun name hname => ?_⟩
    rw [unused] at hname
    cases hname
  have hstate : (n.fresh "state").2.names.find? (n.base ++ "state") =
    some (n.fresh "state").1 := by
    refine hused.find?_fresh fun name hname => ?_
    rw [unused] at hname
    cases hname
  -- A name that was handed out under one text is not in the way of another text.
  have hother : ∀ {m : SlotNamer} {name : Name} {stem stem' : String}, m.names.find?
    (n.base ++ stem) = some name →
      stem ≠ stem' → m.names.lookup name ≠ n.base ++ stem' := by
    intro m name stem stem' hfound hne heq
    rw [NameTable.lookup_of_find? hfound, String.append_right_inj] at heq
    exact hne heq
  have hstatus : ((n.fresh "state").2.fresh "status").2.names.find? (n.base ++ "status") =
      some ((n.fresh "state").2.fresh "status").1 := by
    refine (hused.fresh _).find?_fresh fun name hname => ?_
    rcases List.mem_cons.mp hname with rfl | hname
    · exact hother hstate (by decide)
    · rw [unused] at hname
      cases hname
  have hstate' := (precedes_fresh _ "status").names.find? hstate
  have hresult : (((n.fresh "state").2.fresh "status").2.fresh "result").2.names.find?
    (n.base ++ "result") =
      some (((n.fresh "state").2.fresh "status").2.fresh "result").1 := by
    refine ((hused.fresh _).fresh _).find?_fresh fun name hname => ?_
    rcases List.mem_cons.mp hname with rfl | hname
    · exact hother hstatus (by decide)
    · rcases List.mem_cons.mp hname with rfl | hname
      · exact hother hstate' (by decide)
      · rw [unused] at hname
        cases hname
  have hgrown := (precedes_fresh ((n.fresh "state").2.fresh "status").2 "result").names
  rw [bookkeeping_eq]
  dsimp only
  exact ⟨hgrown.find? hstate', hgrown.find? hstatus, hresult⟩

end SlotNamer

end Resumable
