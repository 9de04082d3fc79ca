import RomStrings.Text.Latin1
import Std.Data.HashSet

/-!
The distinct strings of a list, each where it occurs first. A set remembers what was seen, so a
large image takes one pass.
-/

namespace RomStrings.Rom

/-- Strings seen so far, and the distinct ones, latest first. -/
structure Seen where
  all : Std.HashSet Bytes := {}
  reversed : List Bytes := []

def Seen.see (seen : Seen) (string : Bytes) : Seen :=
  if seen.all.contains string then seen
  else { all := seen.all.insert string, reversed := string :: seen.reversed }

/-- The distinct strings, in the order of their first occurrences. -/
def distinct (strings : List Bytes) : List Bytes :=
  (strings.foldl Seen.see {}).reversed.reverse

/-- What is seen later follows what was seen before, and adds the strings not seen yet, by
induction on them.
-/
theorem reverse_foldl_see (strings : List Bytes) (seen : Seen)
    : (strings.foldl Seen.see seen).reversed.reverse
      = seen.reversed.reverse
        ++ (strings.filter fun string => !seen.all.contains string).eraseDups := by
  induction strings generalizing seen with
  | nil => simp
  | cons string rest ih =>
      rw [List.foldl_cons, ih]
      by_cases known : seen.all.contains string = true
      · simp [Seen.see, known]
      · simp only [Bool.not_eq_true] at known
        simp only [Seen.see, known, Bool.false_eq_true, if_false, Bool.not_false,
          List.filter_cons_of_pos, List.eraseDups_cons, List.reverse_cons, List.append_assoc,
          List.singleton_append, List.filter_filter]
        congr 3
        apply List.filter_congr
        intro other _
        simp [Std.HashSet.contains_insert, Bool.beq_comm (a := other)]

/-- The distinct strings are the list without repetitions. -/
theorem distinct_eq_eraseDups (strings : List Bytes)
    : distinct strings = strings.eraseDups := by
  have all : strings.filter (fun _ => true) = strings := List.filter_eq_self.2 (by simp)
  simpa [distinct, all] using reverse_foldl_see strings {}

end RomStrings.Rom
