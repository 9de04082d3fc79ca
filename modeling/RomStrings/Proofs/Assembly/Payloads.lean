import RomStrings.Proofs.Assembly.Forms

/-!
String data where it stands on its line: the text between two quotes, from the column given for it.
-/

namespace RomStrings.Assembly

open Text

/-- A quoted text ends before the quote that closes it, by induction on the text as it is read. -/
theorem eq_append_of_quotedBody? {text body tail : List Char}
    (found : quotedBody? text = some (body, tail))
    : text = body ++ '"' :: tail := by
  induction text using quotedBody?.induct generalizing body with
  | case1 => cases found
  | case2 rest =>
      cases found
      rfl
  | case3 rest => simp [quotedBody?] at found
  | case4 c rest plain ih =>
      simp only [quotedBody?, plain, if_false, Option.map_eq_some_iff] at found
      obtain ⟨⟨inner, after⟩, read, same⟩ := found
      cases same
      rw [ih read]
      rfl
  | case5 => cases found
  | case6 c rest quote escape single ih =>
      simp only [quotedBody?, Option.map_eq_some_iff] at found
      obtain ⟨⟨inner, after⟩, read, same⟩ := found
      cases same
      rw [ih read]
      rfl

theorem Directive.suffix_of_operands? {d : Directive} {operands : List Char}
    (found : d.operands? = some operands)
    : operands <:+ d.rest := by
  simp only [Directive.operands?] at found
  split at found
  next =>
    cases found
    exact List.dropWhile_suffix isBlank
  next => cases found

/-- A payload is the quoted operand of a directive. -/
theorem quoted_of_payload? {line : String} {payload : Payload}
    (found : payload? line = some payload)
    : ∃ d text tail,
        directive? line.toList = some d
        ∧ d.operands? = some ('"' :: text)
        ∧ quotedBody? text = some (payload.escaped, tail)
        ∧ payload.column = line.toList.length - text.length + 1 := by
  simp only [payload?, Option.bind_eq_bind, Option.bind_eq_some_iff] at found
  obtain ⟨d, known, found⟩ := found
  split at found
  next named =>
    obtain ⟨operands, parted, found⟩ := Option.bind_eq_some_iff.mp found
    split at found
    next text =>
      obtain ⟨⟨body, tail⟩, read, found⟩ := Option.bind_eq_some_iff.mp found
      split at found
      next =>
        cases found
        exact ⟨d, text, tail, known, parted, read, rfl⟩
      next => cases found
    next => cases found
  next => cases found

/-- The text of the payload stands in the line between two quotes, the first of them behind the
given text, and its column is the one behind that quote.
-/
structure Payload.StandsBehind (payload : Payload) (line : String) (front : List Char) : Prop where
  whole : ∃ tail, line.toList = front ++ '"' :: (payload.escaped ++ '"' :: tail)
  column : payload.column = front.length + 2

theorem exists_standsBehind {line : String} {payload : Payload}
    (found : payload? line = some payload)
    : ∃ front, payload.StandsBehind line front := by
  obtain ⟨d, text, tail, known, parted, read, column⟩ := quoted_of_payload? found
  obtain ⟨front, whole⟩ :=
    (Directive.suffix_of_operands? parted).trans (suffix_of_directive? known)
  have shape := eq_append_of_quotedBody? read
  refine ⟨front, ⟨tail, by rw [← whole, shape]⟩, ?_⟩
  rw [column, ← whole, List.length_append, List.length_cons]
  omega

end RomStrings.Assembly
