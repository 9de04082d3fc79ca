import Mathlib.Data.List.Forall2
import RomStrings.Segment

/-!
Counts add up. The counts of segments are the sums of the counts of each, so what holds of a count
segment by segment holds of the whole scan.
-/

namespace RomStrings

namespace Stats

theorem add_assoc (a b c : Stats) : a + b + c = a + (b + c) := by
  change add (add a b) c = add a (add b c)
  simp [add, Int.add_assoc]

theorem zero_add (stats : Stats) : {} + stats = stats := by
  change add {} stats = stats
  simp [add]

theorem add_zero (stats : Stats) : stats + {} = stats := by
  change add stats {} = stats
  simp [add]

/-- A number read off counts, which adds up as they do. -/
structure Additive (count : Stats → Int) : Prop where
  zero : count {} = 0
  add : ∀ a b, count (a + b) = count a + count b

theorem additive_totalResolved : Additive totalResolved where
  zero := rfl
  add a b := by
    change (Stats.add a b).totalResolved = _
    simp only [totalResolved, Stats.add]
    omega

theorem Additive.sum {first second : Stats → Int} (one : Additive first) (two : Additive second)
    : Additive fun stats => first stats + second stats where
  zero := by simp [one.zero, two.zero]
  add a b := by
    rw [one.add, two.add]
    omega

end Stats

namespace Segments

theorem stats_foldl (sum : Stats) (segments : List Segment)
    : segments.foldl (fun sum segment => sum + segment.stats) sum = sum + stats segments := by
  induction segments generalizing sum with
  | nil => exact (Stats.add_zero sum).symm
  | cons segment rest ih =>
      rw [stats, List.foldl_cons, List.foldl_cons, ih, ih, Stats.zero_add, Stats.add_assoc]

theorem stats_cons (segment : Segment) (segments : List Segment)
    : stats (segment :: segments) = segment.stats + stats segments := by
  rw [stats, List.foldl_cons, stats_foldl, Stats.zero_add]

theorem stats_append (segments later : List Segment)
    : stats (segments ++ later) = stats segments + stats later := by
  rw [stats, List.foldl_append, stats_foldl, ← stats]

/-- A count that is no greater for any segment than for its counterpart is no greater for all of
them, by induction on the segments.
-/
theorem count_le {count : Stats → Int} (additive : Stats.Additive count)
    {related : Segment → Segment → Prop} {segments others : List Segment}
    (alike : List.Forall₂ related segments others)
    (le : ∀ segment other, related segment other → count segment.stats ≤ count other.stats)
    : count (stats segments) ≤ count (stats others) := by
  induction alike with
  | nil => exact Int.le_refl _
  | cons first _ ih =>
      rw [stats_cons, stats_cons, additive.add, additive.add]
      exact Int.add_le_add (le _ _ first) ih

theorem count_eq {count : Stats → Int} (additive : Stats.Additive count)
    {related : Segment → Segment → Prop} {segments others : List Segment}
    (alike : List.Forall₂ related segments others)
    (eq : ∀ segment other, related segment other → count segment.stats = count other.stats)
    : count (stats segments) = count (stats others) := by
  induction alike with
  | nil => rfl
  | cons first _ ih => rw [stats_cons, stats_cons, additive.add, additive.add, eq _ _ first, ih]

/-- A count that each segment of a form adds one to, and no other segment does, is the number of
those segments, by induction on them.
-/
theorem count_eq_countP {count : Stats → Int} (additive : Stats.Additive count)
    {form : Segment → Bool} {segments : List Segment}
    (each : ∀ segment ∈ segments, count segment.stats = (form segment).toNat)
    : count (stats segments) = segments.countP form := by
  induction segments with
  | nil => exact additive.zero
  | cons segment rest ih =>
      obtain ⟨first, others⟩ := List.forall_mem_cons.mp each
      rw [stats_cons, additive.add, first, ih others, List.countP_cons]
      cases form segment with
      | false => simp
      | true => simp; omega

end Segments

end RomStrings
