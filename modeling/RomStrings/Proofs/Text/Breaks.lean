import Mathlib.Data.List.Chain
import RomStrings.Proofs.Text.Framing

/-!
Line breaks by the rule for them: each pair of a carriage return and a line feed is replaced, then
each carriage return that is left. Reading a text once gives the same, and how a text is framed
shows in its line feeds after that.
-/

namespace RomStrings.Text

-----------------------------------------------------------------------------------------
-- The rule in two passes
-----------------------------------------------------------------------------------------

/-- The text with a line feed for each pair of a carriage return and a line feed. -/
def feedPairs : List Char → List Char
  | '\r' :: '\n' :: rest => '\n' :: feedPairs rest
  | c :: rest => c :: feedPairs rest
  | [] => []

def feedReturn (c : Char) : Char :=
  if c = '\r' then '\n' else c

/-- The text with a line feed for each pair, and then for each carriage return that is left. -/
def normalized (text : List Char) : List Char :=
  (feedPairs text).map feedReturn

/-- One reading does what the two passes do, by induction on the text with a pair read at once. -/
theorem unifyBreaks_eq_normalized (text : List Char) : unifyBreaks text = normalized text := by
  rw [normalized]
  fun_induction feedPairs text with
  | case1 rest ih => simp [unifyBreaks_pair, ih, feedReturn]
  | case2 c rest notPair ih =>
      by_cases carriage : c = '\r'
      · subst carriage
        have alone : rest.head? ≠ some '\n' := by
          intro feed
          obtain ⟨tail, rfl⟩ := List.head?_eq_some_iff.mp feed
          exact notPair tail rfl rfl
        simp [unifyBreaks_return alone, ih, feedReturn]
      · simp [unifyBreaks_cons carriage, ih, feedReturn, carriage]
  | case3 => rfl

-----------------------------------------------------------------------------------------
-- How a text is framed
-----------------------------------------------------------------------------------------

/-- The last part is empty exactly if the text is, or ends in a separator. -/
theorem getLast?_split_iff {separator : Char} {text : List Char}
    : (split separator text).getLast? = some [] ↔ text = [] ∨ text.getLast? = some separator := by
  constructor
  · intro last
    obtain ⟨front, parts⟩ := List.getLast?_eq_some_iff.mp last
    have whole := join_split separator text
    rw [parts] at whole
    cases front with
    | nil => exact .inl whole.symm
    | cons part others =>
        rw [join_snoc (List.cons_ne_nil part others)] at whole
        exact .inr (by simp [← whole])
  · rintro (rfl | last)
    · rfl
    · obtain ⟨front, rfl⟩ := List.getLast?_eq_some_iff.mp last
      simp [split_concat]

theorem unifyBreaks_eq_nil_iff {text : List Char} : unifyBreaks text = [] ↔ text = [] := by
  constructor
  · intro empty
    rw [unifyBreaks_eq_normalized, normalized, List.map_eq_nil_iff] at empty
    cases text with
    | nil => rfl
    | cons c rest =>
        unfold feedPairs at empty
        split at empty <;> simp_all
  · rintro rfl
    rfl

/-- A text is ended if there is nothing of it, or a line break at its end. -/
theorem ended_frame_iff {text : List Char}
    : (frame text).ended = true ↔ text = [] ∨ (unifyBreaks text).getLast? = some '\n' := by
  rw [← unifyBreaks_eq_nil_iff, ← getLast?_split_iff, frame]
  split <;> simp_all

/-- There is no line exactly in the empty text. -/
theorem lines_frame_eq_nil_iff {text : List Char} : (frame text).lines = [] ↔ text = [] := by
  constructor
  · intro none
    have whole := text_frame text
    rw [Framed.text, none] at whole
    exact unifyBreaks_eq_nil_iff.mp whole.symm
  · rintro rfl
    rfl

/-- A line break at the end makes a part of its own. -/
theorem length_split_unifyBreaks (text : List Char)
    : (split '\n' (unifyBreaks text)).length
      = (frame text).lines.length + (frame text).ended.toNat := by
  have nonempty := List.length_pos_iff.mpr (split_ne_nil '\n' (unifyBreaks text))
  simp only [frame]
  split
  · simp only [List.length_dropLast, Bool.toNat_true]
    omega
  · rfl

/-- What a text shares with the one that it replaces, and how many lines it has more. -/
structure FramedLike (text : List Char) (more : Nat) (out : List Char) : Prop where
  plain : '\r' ∉ out
  ended : out.getLast? = some '\n' ↔ (normalized text).getLast? = some '\n'
  empty : out = [] ↔ text = []
  height : (split '\n' out).length = (split '\n' (normalized text)).length + more

/-- A text with unified line breaks that is framed like another one, apart from further lines. -/
theorem framedLike_of_frame {text out : List Char} {more : Nat}
    (unified : unifyBreaks out = out)
    (ended : (frame out).ended = (frame text).ended)
    (height : (frame out).lines.length = (frame text).lines.length + more)
    (nothing : text = [] → more = 0)
    : FramedLike text more out := by
  have empty : out = [] ↔ text = [] := by
    have given : text = [] ↔ (frame text).lines = [] := lines_frame_eq_nil_iff.symm
    rw [given, ← lines_frame_eq_nil_iff, ← List.length_eq_zero_iff, ← List.length_eq_zero_iff,
      height, Nat.add_eq_zero_iff]
    constructor
    · exact And.left
    · intro none
      exact ⟨none, nothing (lines_frame_eq_nil_iff.mp (List.length_eq_zero_iff.mp none))⟩
  have last : (out = [] ∨ out.getLast? = some '\n')
      ↔ (text = [] ∨ (unifyBreaks text).getLast? = some '\n') := by
    have own : (frame out).ended = true ↔ out = [] ∨ (unifyBreaks out).getLast? = some '\n' :=
      ended_frame_iff
    rw [unified] at own
    rw [← own, ended, ended_frame_iff]
  have parts := length_split_unifyBreaks out
  rw [unified, height, ended] at parts
  refine
    { plain := unified ▸ return_not_mem_unifyBreaks out
      ended := ?_
      empty
      height := ?_ }
  · rw [← unifyBreaks_eq_normalized]
    by_cases none : text = []
    · simp [none, empty.mpr none, unifyBreaks]
    · simpa [none, mt empty.mp none] using last
  · rw [parts, ← unifyBreaks_eq_normalized, length_split_unifyBreaks]
    omega

-----------------------------------------------------------------------------------------
-- Lines with breaks of any kind
-----------------------------------------------------------------------------------------

/-- The ways to end a line. -/
inductive LineBreak where
  | feed
  | carriage
  | pair
  deriving DecidableEq, Repr

def LineBreak.chars : LineBreak → List Char
  | .feed => ['\n']
  | .carriage => ['\r']
  | .pair => ['\r', '\n']

/-- A line with the break behind it. -/
structure EndedLine where
  chars : List Char
  ending : LineBreak
  deriving DecidableEq, Repr

def EndedLine.text (line : EndedLine) : List Char :=
  line.chars ++ line.ending.chars

def EndedLine.withFeed (line : EndedLine) : EndedLine :=
  { line with ending := .feed }

/-- The breaks of two lines in a row do not make a pair. An empty line that ends in a line feed does
so behind a carriage return.
-/
def EndedLine.Apart (line next : EndedLine) : Prop :=
  ¬(line.ending = .carriage ∧ next.chars = [] ∧ next.ending = .feed)

instance (line next : EndedLine) : Decidable (line.Apart next) :=
  inferInstanceAs (Decidable (¬_))

def endedText (lines : List EndedLine) : List Char :=
  lines.flatMap EndedLine.text

theorem endedText_cons (line : EndedLine) (lines : List EndedLine)
    : endedText (line :: lines) = line.chars ++ (line.ending.chars ++ endedText lines) := by
  simp [endedText, EndedLine.text]

/-- Line breaks are unified behind an unbroken part, by induction on that part. -/
theorem unifyBreaks_append {part : List Char} (plain : '\r' ∉ part) (rest : List Char)
    : unifyBreaks (part ++ rest) = part ++ unifyBreaks rest := by
  induction part with
  | nil => rfl
  | cons c part ih =>
      have different : c ≠ '\r' := fun same => plain (by simp [same])
      have later : '\r' ∉ part := fun member => plain (List.mem_cons_of_mem c member)
      rw [List.cons_append, unifyBreaks_cons different, ih later, List.cons_append]

/-- A break counts as one line feed, unless it is a carriage return with a line feed behind. -/
theorem unifyBreaks_ending {ending : LineBreak} {rest : List Char}
    (apart : ending = .carriage → rest.head? ≠ some '\n')
    : unifyBreaks (ending.chars ++ rest) = '\n' :: unifyBreaks rest := by
  cases ending with
  | feed => exact unifyBreaks_cons (by decide) rest
  | carriage => exact unifyBreaks_return (apart rfl)
  | pair => exact unifyBreaks_pair rest

/-- Lines start with a line feed only if the first is empty and ends in one. -/
theorem head?_endedText_cons {line : EndedLine} {lines : List EndedLine}
    (unbroken : Unbroken line.chars)
    : (endedText (line :: lines)).head? = some '\n' ↔ line.chars = [] ∧ line.ending = .feed := by
  rw [endedText_cons]
  cases chars : line.chars with
  | nil => cases line.ending <;> simp [LineBreak.chars]
  | cons c rest =>
      have different : c ≠ '\n' := fun same => unbroken.feed (by simp [chars, same])
      simp [different]

/-- Lines whose breaks stay apart are the same lines with line feeds, by induction on them. -/
theorem unifyBreaks_endedText {lines : List EndedLine}
    (unbroken : ∀ line ∈ lines, Unbroken line.chars) (apart : lines.IsChain EndedLine.Apart)
    : unifyBreaks (endedText lines) = endedText (lines.map EndedLine.withFeed) := by
  induction lines with
  | nil => rfl
  | cons line rest ih =>
      have later := ih (fun own member => unbroken own (List.mem_cons_of_mem _ member)) apart.tail
      have behind : line.ending = .carriage → (endedText rest).head? ≠ some '\n' := by
        intro carriage
        cases rest with
        | nil => simp [endedText]
        | cons next others =>
            have next_unbroken := unbroken next (by simp)
            rw [Ne, head?_endedText_cons next_unbroken]
            intro fuses
            exact (List.isChain_cons_cons.mp apart).1 ⟨carriage, fuses⟩
      rw [endedText_cons, unifyBreaks_append (unbroken line (by simp)).carriage,
        unifyBreaks_ending behind, later, List.map_cons, endedText_cons]
      rfl

end RomStrings.Text
