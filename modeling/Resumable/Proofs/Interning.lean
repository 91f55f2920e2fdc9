import Mathlib.Data.List.Dedup
import Resumable.Proofs.Freshness

/-!
# Names stand for strings

A table hands out names for strings in any order, again and again, and to whoever shares
it. **Whatever was asked of it, its map and its array are inverse to each other**: each
string has one name and each name one string, which does not change, and the table holds
no string twice. So a namer that shares its table with others still finds the first name
that it has not handed out.

## Main definitions

* `SlotNamer.serve`: what a namer hands out while others use its table.

## Main statements

* `NameTable.perm_internAll`: a table holds the empty string and those that were interned,
  each of them once.
* `SlotNamer.wellUsed_serve`: a namer that serves requests knows what it handed out.
* `names_stand_for_strings`: names and strings correspond, and a namer hands out the
  first one that is left.
-/

namespace Resumable

namespace NameTable

theorem precedes_internAll (t : NameTable) (texts : List String) :
    t.Precedes (t.internAll texts) := by
  induction texts generalizing t with
  | nil => exact .refl t
  | cons s rest ih => exact (t.precedes_intern s).trans (ih _)

/-- The strings of a table are those that it finds. -/
theorem mem_strings_iff {t : NameTable} {s : String} :
    s ∈ t.strings.toList ↔ ∃ name, t.find? s = some name := by
  simp only [find?_eq_some_iff, List.mem_iff_getElem?, Array.getElem?_toList]
  exact ⟨fun ⟨i, hi⟩ => ⟨⟨i⟩, hi⟩, fun ⟨name, hname⟩ => ⟨name.index, hname⟩⟩

/-- **A table holds no string twice**: its map has one number for each. -/
theorem nodup_strings (t : NameTable) : t.strings.toList.Nodup := by
  rw [List.nodup_iff_injective_getElem]
  intro i j hij
  have hi : t.strings[i.1]? = some (t.strings.toList[i.1]) := by
    rw [← Array.getElem?_toList, List.getElem?_eq_getElem i.2]
  have hj : t.strings[j.1]? = some (t.strings.toList[i.1]) := by
    rw [← Array.getElem?_toList, List.getElem?_eq_getElem j.2]
    exact congrArg some hij.symm
  rw [← t.inverse] at hi hj
  exact Fin.ext (Option.some.inj (hi.symm.trans hj))

theorem mem_strings_intern {t : NameTable} {s text : String} :
    text ∈ (t.intern s).2.strings.toList ↔ text ∈ t.strings.toList ∨ text = s := by
  obtain ⟨hfound, hsame⟩ | ⟨-, -, hpush⟩ := t.intern_cases s
  · rw [hsame, iff_self_or]
    rintro rfl
    exact mem_strings_iff.mpr ⟨_, hfound⟩
  · rw [hpush, Array.toList_push, List.mem_append, List.mem_singleton]

theorem mem_internAll {t : NameTable} {texts : List String} {s : String} :
    s ∈ (t.internAll texts).strings.toList ↔ s ∈ t.strings.toList ∨ s ∈ texts := by
  induction texts generalizing t with
  | nil => simp [internAll, InternTable.internAll]
  | cons first rest ih =>
    refine (ih (t := (t.intern first).2)).trans ?_
    rw [mem_strings_intern, List.mem_cons, or_assoc]

/-- **A table holds the empty string and those that were interned**, each of them once. -/
theorem perm_internAll (texts : List String) :
    (empty.internAll texts).strings.toList.Perm ("" :: (texts.filter (· ≠ "")).dedup) := by
  have hempty : empty.strings.toList = [""] := rfl
  have hnodup : ("" :: (texts.filter (· ≠ "")).dedup).Nodup := by simp [List.nodup_dedup]
  refine (List.perm_ext_iff_of_nodup (nodup_strings _) hnodup).mpr fun s => ?_
  rw [mem_internAll, hempty]
  by_cases hs : s = "" <;> simp [hs]

end NameTable

/-- What is asked of a namer and of the table that it shares. -/
inductive NameRequest where
  /-- A name that the namer has not handed out. -/
  | fresh (stem : String)
  /-- The name of a string, for whoever uses the table; the dispatch gets
  its name in this way. -/
  | intern (text : String)

namespace SlotNamer

/-- The names that were handed out, latest first, and the namer, after one more request. -/
def serve (state : List Name × SlotNamer) : NameRequest → List Name × SlotNamer
  | .fresh stem => ((state.2.fresh stem).1 :: state.1, (state.2.fresh stem).2)
  | .intern text => (state.1, { state.2 with names := (state.2.names.intern text).2 })

/-- **A namer that serves requests** uses the names that it handed out, whatever else
happens to its table. -/
theorem wellUsed_serve (requests : List NameRequest) {given : List Name} {n : SlotNamer}
    (h : n.WellUsed) (hused : n.used = given) : (requests.foldl serve (given, n)).2.WellUsed ∧
      (requests.foldl serve (given, n)).2.used = (requests.foldl serve (given, n)).1 ∧
      (requests.foldl serve (given, n)).2.base = n.base := by
  induction requests generalizing given n with
  | nil => exact ⟨h, hused, rfl⟩
  | cons request rest ih =>
    cases request with
    | fresh stem => exact ih (h.fresh stem) (congrArg (List.cons _) hused)
    | intern text =>
      refine ih (n := { n with names := (n.names.intern text).2 })
        ⟨h.distinct, fun name hname => ?_⟩ hused
      obtain ⟨known, hknown⟩ := h.known name hname
      exact ⟨known, (n.names.precedes_intern text).find? hknown⟩

end SlotNamer

open SlotNamer (candidate serve)

/-- **Names stand for strings.**  Whatever strings were interned, the map and the array that
hold them are inverse to each other.  So the name of a string stands for it, whatever is
interned before and after; two strings have the same name exactly if they are the same; a name
that is known keeps its string; and the table holds the empty string and each other string
that was interned, once.  And a namer that has served any requests hands out the first of its
candidates for a stem that it has not handed out before. -/
theorem names_stand_for_strings (earlier later : List String)
    (s s' slotPrefix procedure : String) (requests : List NameRequest) (stem : String) :
    let t := NameTable.empty.internAll earlier
    let u := (t.intern s).2.internAll later
    let state := requests.foldl serve ([], .new t slotPrefix procedure)
    let base := slotPrefix ++ procedure ++ "_"
    t.toInternTable = InternTable.empty.internAll earlier ∧
      (InternTable.empty.internAll earlier).Inverse ∧
      u.lookup (t.intern s).1 = s ∧ ((u.intern s').1 = (t.intern s).1 ↔ s' = s) ∧
      (∀ name, name.index < t.size → u.lookup name = t.lookup name) ∧
      t.size = 1 + (earlier.filter (· ≠ "")).dedup.length ∧
      ∃ k,
        (state.2.fresh stem).2.names.lookup (state.2.fresh stem).1 = candidate base stem k ∧
        candidate base stem k ∉ state.1.map state.2.names.lookup ∧
        ∀ j < k, candidate base stem j ∈ state.1.map state.2.names.lookup := by
  intro t u state base
  have hname : u.find? s = some (t.intern s).1 :=
    (NameTable.precedes_internAll _ later).find? (t.find?_intern s)
  refine ⟨rfl, InternTable.inverse_empty.internAll earlier, NameTable.lookup_of_find? hname,
    ⟨fun heq => ?_, ?_⟩, fun name hknown => ?_, ?_, ?_⟩
  · exact NameTable.text_eq_of_find? (heq ▸ u.find?_intern s')
      ((u.precedes_intern s').find? hname)
  · rintro rfl
    exact Option.some.inj ((u.find?_intern s').symm.trans
      ((u.precedes_intern s').find? hname))
  · exact ((t.precedes_intern s).trans (NameTable.precedes_internAll _ later)).lookup hknown
  · rw [Nat.add_comm]
    exact (NameTable.perm_internAll earlier).length_eq
  · obtain ⟨hwell, hused, hbase⟩ :=
      SlotNamer.wellUsed_serve requests (SlotNamer.wellUsed_new t slotPrefix procedure) rfl
    obtain ⟨k, hfound, hfree, hpassed⟩ := hwell.fresh_first stem
    rw [hused, hbase] at hfree hpassed
    rw [hbase] at hfound
    exact ⟨k, NameTable.lookup_of_find? hfound, hfree, hpassed⟩

end Resumable
