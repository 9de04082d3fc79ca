import Mathlib.Data.List.Induction
import RomStrings.Proofs.Scan.Holding

/-!
Scanners and replacers that are used again. What a scan comes to does not depend on the inputs
before it, and a replacer keeps what it would have after its last success alone.
-/

namespace RomStrings

-----------------------------------------------------------------------------------------
-- Scans in a row
-----------------------------------------------------------------------------------------

/-- Wherever a scanner stands, its inputs are scanned from the start, by induction on them. -/
theorem Scan.Scanner.scanEach_eq (table : Rom.Table) (scanner : Scanner)
    (inputs : List (List String))
    : scanner.scanEach table inputs = inputs.map (history table) := by
  induction inputs generalizing scanner with
  | nil => rfl
  | cons lines rest ih =>
      rw [scanEach, ih, List.map_cons]
      rfl

-----------------------------------------------------------------------------------------
-- Texts in a row
-----------------------------------------------------------------------------------------

namespace Replacer

variable {replacer fresh : Replacer} {texts : List String} {text : String}

/-- Replace texts one after another, each with the replacer that the one before it left. -/
def replaceEach (replacer : Replacer) : List String → List (Except Scan.Error String × Replacer)
  | [] => []
  | text :: rest =>
      let done := replacer.replace text
      done :: done.2.replaceEach rest

/-- The replacer after texts. -/
def after (replacer : Replacer) (texts : List String) : Replacer :=
  texts.foldl (fun used text => (used.replace text).2) replacer

/-- A text is replaced by what the texts before it left of the replacer, by induction on the texts.
-/
theorem getElem?_replaceEach (replacer : Replacer) (texts : List String) (index : Nat)
    : (replacer.replaceEach texts)[index]?
      = texts[index]?.map (replacer.after (texts.take index)).replace := by
  induction texts generalizing replacer index with
  | nil => rfl
  | cons text rest ih =>
      cases index with
      | zero => rfl
      | succ index =>
          simp only [replaceEach, List.getElem?_cons_succ, List.take_succ_cons, ih]
          rfl

/-- The replacer refuses the text. -/
def Refuses (replacer : Replacer) (text : String) : Prop :=
  ∃ fault, (replacer.replace text).1 = .error fault

/-- A text that is refused leaves the replacer as it is. -/
theorem replace_of_refuses (refused : replacer.Refuses text)
    : (replacer.replace text).2 = replacer := by
  obtain ⟨fault, failed⟩ := refused
  simp only [replace] at failed ⊢
  split at failed
  next => rfl
  next => cases failed

/-- What a replacer is after texts: as it was before the first, if it refuses all of them, and else
what it would be after the last one that it does not refuse.
-/
inductive KeptAfter (fresh : Replacer) (texts : List String) : Replacer → Prop
  | none (refused : ∀ text ∈ texts, fresh.Refuses text) : KeptAfter fresh texts fresh
  | last {before later : List String} {text out : String} (whole : texts = before ++ text :: later)
    (success : (fresh.replace text).1 = .ok out) (refused : ∀ own ∈ later, fresh.Refuses own)
    : KeptAfter fresh texts (fresh.replace text).2

/-- Replacers of the same table and options give the same outcomes, and are the same after a
success.
-/
theorem replace_eq_of_same {used : Replacer} (table : used.table = fresh.table)
    (options : used.options = fresh.options) (text : String)
    : (used.replace text).1 = (fresh.replace text).1
      ∧ (fresh.Refuses text ∨ (used.replace text).2 = (fresh.replace text).2) := by
  simp only [Refuses, replace, table, options]
  cases Replacement.ofText fresh.table fresh.options text with
  | error fault => exact ⟨rfl, .inl ⟨fault, rfl⟩⟩
  | ok pair => exact ⟨rfl, .inr rfl⟩

/-- Texts leave the table and the options alone, by cases on what is kept. -/
theorem KeptAfter.same {used : Replacer} (kept : KeptAfter fresh texts used)
    : used.table = fresh.table ∧ used.options = fresh.options := by
  have each (text : String)
      : (fresh.replace text).2.table = fresh.table
        ∧ (fresh.replace text).2.options = fresh.options := by
    simp only [replace]
    split <;> exact ⟨rfl, rfl⟩
  cases kept with
  | none => exact ⟨rfl, rfl⟩
  | @last _ _ text => exact each text

/-- One more text is refused, or is the last that is not. -/
theorem KeptAfter.replace {used : Replacer} (kept : KeptAfter fresh texts used) (text : String)
    : KeptAfter fresh (texts ++ [text]) (used.replace text).2 := by
  obtain ⟨table, options⟩ := kept.same
  obtain ⟨outcome, state⟩ := replace_eq_of_same table options text
  cases done : (fresh.replace text).1 with
  | ok out =>
      have state : (used.replace text).2 = (fresh.replace text).2 := by
        refine state.resolve_left ?_
        rintro ⟨fault, failed⟩
        cases done.symm.trans failed
      rw [state]
      have whole : texts ++ [text] = texts ++ text :: [] := rfl
      exact .last whole done (by simp)
  | error fault =>
      have refuses : ∀ own ∈ [text], fresh.Refuses own := by
        intro own member
        exact List.mem_singleton.mp member ▸ ⟨fault, done⟩
      rw [replace_of_refuses ⟨fault, outcome.trans done⟩]
      cases kept with
      | none refused => exact .none (List.forall_mem_append.mpr ⟨refused, refuses⟩)
      | @last before later own out whole success refused =>
          have longer : texts ++ [text] = before ++ own :: (later ++ [text]) := by simp [whole]
          exact .last longer success (List.forall_mem_append.mpr ⟨refused, refuses⟩)

/-- What a replacer is after texts, by induction on the texts from the last one on. -/
theorem keptAfter_after (fresh : Replacer) (texts : List String)
    : KeptAfter fresh texts (fresh.after texts) := by
  induction texts using List.reverseRecOn with
  | nil => exact .none (by simp)
  | append_singleton texts text ih =>
      have step : fresh.after (texts ++ [text]) = ((fresh.after texts).replace text).2 := by
        simp [after]
      rw [step]
      exact ih.replace text

end Replacer

-----------------------------------------------------------------------------------------
-- Used again as if new
-----------------------------------------------------------------------------------------

/-- Scanners and replacers of the table and options are as good as new when they are used again. -/
structure ReusedAsNew (table : Rom.Table) (options : Options) : Prop where
  /-- Whatever a scanner holds, each of its inputs comes to what it comes to by itself. -/
  scans (holding : Scan.Holding) (inputs : List (List String))
    : holding.scanEach table options.comment inputs
      = inputs.map fun lines => (Scan.Holding.scan table options.comment {} lines).1
  /-- What is gathered while lines are read is what the segments of the input give. -/
  gathered (lines : List String)
    : (Scan.Holding.scan table options.comment {} lines).1
      = (Scan.segments table lines).map (Replacement.scanned options.comment)
  histories (scanner : Scan.Scanner) (inputs : List (List String))
    : scanner.scanEach table inputs = inputs.map (Scan.history table)
  /-- Each text comes to what it comes to by itself, and the replacer keeps what the last success
  would leave.
  -/
  replaced (texts : List String) (index : Nat) (text : String) (given : texts[index]? = some text)
    : let fresh : Replacer := { table, options }
      ∃ used,
        (fresh.replaceEach texts)[index]? = some ((fresh.replace text).1, used)
        ∧ fresh.KeptAfter (texts.take (index + 1)) used
  refused (used : Replacer) (text : String) (refuses : used.Refuses text)
    : (used.replace text).2 = used

theorem reusedAsNew (table : Rom.Table) (options : Options) : ReusedAsNew table options where
  scans holding inputs := by
    simp only [Scan.Holding.scanEach_eq, Scan.Holding.scan_eq]
  gathered := Scan.Holding.scan_eq table options.comment {}
  histories := Scan.Scanner.scanEach_eq table
  replaced texts index text given := by
    intro fresh
    have kept := Replacer.keptAfter_after fresh (texts.take index)
    obtain ⟨sameTable, sameOptions⟩ := kept.same
    have outcome := (Replacer.replace_eq_of_same sameTable sameOptions text).1
    refine ⟨((fresh.after (texts.take index)).replace text).2, ?_, ?_⟩
    · rw [Replacer.getElem?_replaceEach, given, ← outcome]
      rfl
    · rw [List.take_add_one, given]
      exact kept.replace text
  refused used text refuses := Replacer.replace_of_refuses refuses

/-- A text that ends inside a block is refused before and behind one that is replaced. -/
example
    : let fresh : Replacer := { table := Rom.Table.ofImage [104, 105, 0] 4096, options := {} }
      let cut := "\t.section\t.rodata\n.LC0:\n"
      let whole := cut ++ "\t.string\t\"hi\"\n\t.text\n"
      (fresh.replaceEach [cut, whole, cut]).map
          (fun done => (done.1.toOption.isSome, done.2.resolution))
        = [(false, []), (true, [(".LC0", 4096)]), (false, [(".LC0", 4096)])] := by
  decide +kernel

end RomStrings
