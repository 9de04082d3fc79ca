import Mathlib.Data.List.Dedup
import Mathlib.Data.List.Induction
import RomStrings.Proofs.Scan.Addresses

/-!
Labels that are given addresses in two goes. A label keeps its place among the others, so it does
not matter whether the second go is noted by itself first.
-/

namespace RomStrings.Resolution

variable {resolution : Resolution} {label : String} {address : Address}

theorem insert_insert_self (resolution : Resolution) (label : String) (old address : Address)
    : (resolution.insert label old).insert label address = resolution.insert label address := by
  induction resolution with
  | nil => simp [insert]
  | cons pair rest ih =>
      obtain ⟨other, place⟩ := pair
      by_cases same : other = label
      · simp [insert, same]
      · simp [insert, same, ih]

/-- Where a label is listed already, it does not matter when it is given its address, by induction
on the labels listed.
-/
theorem insert_comm {other : String} (listed : label ∈ resolution.map Prod.fst)
    (apart : other ≠ label) (place : Address)
    : (resolution.insert other place).insert label address
      = (resolution.insert label address).insert other place := by
  induction resolution with
  | nil => cases listed
  | cons pair rest ih =>
      obtain ⟨first, old⟩ := pair
      by_cases here : first = label
      · subst here
        simp [insert, Ne.symm apart]
      · have later : label ∈ rest.map Prod.fst := by
          rcases List.mem_cons.mp listed with same | later
          · exact absurd same.symm here
          · exact later
        by_cases there : first = other
        · subst there
          simp [insert, here]
        · simp [insert, here, there, ih later]

theorem insertAll_cons (resolution : Resolution) (pair : String × Address)
    (pairs : List (String × Address))
    : resolution.insertAll (pair :: pairs)
      = (resolution.insert pair.1 pair.2).insertAll pairs :=
  rfl

theorem insertAll_append (resolution : Resolution) (pairs later : List (String × Address))
    : resolution.insertAll (pairs ++ later) = (resolution.insertAll pairs).insertAll later := by
  simp [insertAll]

/-- The labels listed are those listed before and the one given an address. -/
theorem mem_labels_insert {other : String}
    : other ∈ (resolution.insert label address).map Prod.fst
      ↔ other = label ∨ other ∈ resolution.map Prod.fst := by
  rw [labels_insert]
  split
  next listed =>
    constructor
    · exact .inr
    · rintro (rfl | known)
      · exact listed
      · exact known
  next => rw [List.mem_append, List.mem_singleton, or_comm]

theorem mem_labels_insertAll {other : String} {pairs : List (String × Address)}
    : other ∈ (resolution.insertAll pairs).map Prod.fst
      ↔ other ∈ resolution.map Prod.fst ∨ other ∈ pairs.map Prod.fst := by
  induction pairs generalizing resolution with
  | nil => simp [insertAll]
  | cons pair rest ih =>
      rw [insertAll_cons, ih, mem_labels_insert, List.map_cons, List.mem_cons, or_assoc,
        or_left_comm]

/-- A listed label may get its address before others do, by induction on the others. -/
theorem insertAll_insert {pairs : List (String × Address)}
    (listed : label ∈ resolution.map Prod.fst) (absent : label ∉ pairs.map Prod.fst)
    : (resolution.insertAll pairs).insert label address
      = (resolution.insert label address).insertAll pairs := by
  induction pairs generalizing resolution with
  | nil => rfl
  | cons pair rest ih =>
      rw [List.map_cons, List.mem_cons, not_or] at absent
      obtain ⟨apart, absent⟩ := absent
      rw [insertAll_cons, insertAll_cons,
        ih (mem_labels_insert.mpr (.inr listed)) absent,
        insert_comm listed (Ne.symm apart)]

/-- One more label may be noted among the second go or behind it, by induction on the labels noted
in the second go.
-/
theorem insertAll_insert_unique {noted : Resolution} (unique : noted.Unique)
    : resolution.insertAll (noted.insert label address)
      = (resolution.insertAll noted).insert label address := by
  induction noted generalizing resolution with
  | nil => rfl
  | cons pair rest ih =>
      obtain ⟨other, old⟩ := pair
      obtain ⟨fresh, unique⟩ := List.nodup_cons.mp unique
      by_cases same : other = label
      · subst same
        simp only [insert, if_true, insertAll_cons]
        rw [insertAll_insert (mem_labels_insert.mpr (.inl rfl)) fresh, insert_insert_self]
      · simp only [insert, if_neg same, insertAll_cons]
        exact ih unique

theorem Unique.insertAll (unique : resolution.Unique) (pairs : List (String × Address))
    : (resolution.insertAll pairs).Unique := by
  induction pairs generalizing resolution with
  | nil => exact unique
  | cons pair rest ih => exact ih (unique.insert pair.1 pair.2)

theorem unique_nil : Unique [] := List.nodup_nil

theorem unique_ofPairs (pairs : List (String × Address)) : (ofPairs pairs).Unique :=
  unique_nil.insertAll pairs

/-- The labels listed are those noted, each once. -/
theorem labels_ofPairs (pairs : List (String × Address))
    : ((ofPairs pairs).map Prod.fst).Perm (pairs.map Prod.fst).dedup := by
  refine (List.perm_ext_iff_of_nodup (unique_ofPairs pairs) (List.nodup_dedup _)).mpr ?_
  intro label
  rw [List.mem_dedup, ofPairs, mem_labels_insertAll]
  exact or_iff_right List.not_mem_nil

theorem length_ofPairs (pairs : List (String × Address))
    : (ofPairs pairs).length = (pairs.map Prod.fst).dedup.length := by
  rw [← (labels_ofPairs pairs).length_eq, List.length_map]

theorem length_ofPairs_le (pairs : List (String × Address))
    : (ofPairs pairs).length ≤ pairs.length := by
  rw [length_ofPairs, ← pairs.length_map (f := Prod.fst)]
  exact (List.dedup_sublist _).length_le

/-- As many labels are listed as are noted, if none is noted twice. -/
theorem length_ofPairs_eq_iff {pairs : List (String × Address)}
    : (ofPairs pairs).length = pairs.length ↔ (pairs.map Prod.fst).Nodup := by
  rw [length_ofPairs, ← pairs.length_map (f := Prod.fst), ← List.dedup_eq_self]
  constructor
  · exact (List.dedup_sublist _).eq_of_length
  · exact congrArg List.length

/-- Noting the second go by itself first changes nothing, by induction on its pairs from the last
one on.
-/
theorem insertAll_ofPairs (resolution : Resolution) (pairs : List (String × Address))
    : resolution.insertAll (ofPairs pairs) = resolution.insertAll pairs := by
  induction pairs using List.reverseRecOn with
  | nil => rfl
  | append_singleton pairs pair ih =>
      have noted : ofPairs (pairs ++ [pair]) = (ofPairs pairs).insert pair.1 pair.2 := by
        rw [ofPairs, insertAll_append]
        rfl
      rw [noted, insertAll_insert_unique (unique_ofPairs pairs), ih, insertAll_append]
      rfl

/-- The address of a label is the one it is listed with, as no label is listed twice. By induction
on the labels listed.
-/
theorem find?_eq_some_iff (unique : resolution.Unique)
    : resolution.find? label = some address ↔ (label, address) ∈ resolution := by
  induction resolution with
  | nil => simp [find?]
  | cons pair rest ih =>
      obtain ⟨other, place⟩ := pair
      obtain ⟨fresh, unique⟩ := List.nodup_cons.mp unique
      rw [find?] at ih ⊢
      by_cases same : label = other
      · subst same
        have absent : (label, address) ∉ rest := by
          intro member
          have known : label ∈ rest.map Prod.fst := List.mem_map.mpr ⟨_, member, rfl⟩
          exact fresh known
        simp [absent, eq_comm]
      · have apart : (label == other) = false := by simpa using same
        rw [List.lookup_cons, apart]
        simp [same, ih unique]

end RomStrings.Resolution
