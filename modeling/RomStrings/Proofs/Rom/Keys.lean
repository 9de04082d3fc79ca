import RomStrings.Block.Basic

/-!
Tables that hold more strings. Whether data is found at all, and whether it is found as a whole
string, is a matter of which strings a table holds, so a table with more of them loses nothing.
-/

namespace RomStrings

namespace Rom.Table

variable {table other : Table} {data : Bytes}

theorem mem_strings : data ∈ table.strings ↔ ∃ chunk ∈ table.chunks, chunk.bytes = data := by
  rw [strings, distinct_eq_eraseDups, List.mem_eraseDups, List.mem_map]

/-- The strings of a table are those that can be looked up in it. -/
theorem mem_strings_iff : data ∈ table.strings ↔ (table.lookup data).isSome = true := by
  rw [mem_strings]
  simp [lookup]

theorem isSome_matchExact : (table.matchExact data).isSome = true ↔ data ∈ table.strings := by
  rw [mem_strings_iff, matchExact, Option.isSome_map]

/-- The data is the tail of a longer string. -/
def IsTail (table : Table) (data : Bytes) : Prop :=
  data ≠ [] ∧ ∃ string ∈ table.strings, data.length < string.length ∧ data <:+ string

theorem endsWith_iff {chunk : Chunk}
    : endsWith data chunk = true
      ↔ data.length < chunk.bytes.length ∧ data <:+ chunk.bytes := by
  simp [endsWith, List.isSuffixOf_iff_suffix]

/-- Data is found as a tail exactly if it is one, as the longer string can be looked up. -/
theorem isSome_matchSuffix : (table.matchSuffix data).isSome = true ↔ table.IsTail data := by
  rw [matchSuffix, Option.isSome_map, findSuffix]
  cases data with
  | nil => simp [IsTail]
  | cons byte rest =>
      constructor
      · intro found
        obtain ⟨suffix, known⟩ := Option.isSome_iff_exists.mp found
        simp only [List.isEmpty_cons, Bool.false_eq_true, if_false, Option.bind_eq_bind,
          Option.bind_eq_some_iff] at known
        obtain ⟨chunk, first, -⟩ := known
        have ends := endsWith_iff.mp (List.find?_some first)
        have member := List.mem_of_find?_eq_some first
        exact ⟨nofun, chunk.bytes, mem_strings.mpr ⟨chunk, member, rfl⟩, ends⟩
      · intro given
        obtain ⟨-, string, listed, ends⟩ := given
        obtain ⟨chunk, member, rfl⟩ := mem_strings.mp listed
        have some : (table.chunks.find? (endsWith (byte :: rest))).isSome = true :=
          List.find?_isSome.mpr ⟨chunk, member, endsWith_iff.mpr ends⟩
        obtain ⟨first, known⟩ := Option.isSome_iff_exists.mp some
        have looked := mem_strings_iff.mp
          (mem_strings.mpr ⟨first, List.mem_of_find?_eq_some known, rfl⟩)
        obtain ⟨address, held⟩ := Option.isSome_iff_exists.mp looked
        simp [known, held]

/-- A literal is found if it is a string of the table or a tail of one. -/
theorem isSome_matchLiteral
    : (table.matchLiteral data).isSome = true ↔ data ∈ table.strings ∨ table.IsTail data := by
  rw [matchLiteral, ← isSome_matchExact, ← isSome_matchSuffix]
  cases table.matchExact data <;> simp

/-- A literal is found whole exactly if it is a string of the table. -/
theorem kind_of_matchLiteral {found : Match} (matched : table.matchLiteral data = some found)
    : found.kind = .exact ↔ data ∈ table.strings := by
  rw [← isSome_matchExact]
  cases whole : table.matchExact data with
  | some exact =>
      obtain ⟨address, -, rfl⟩ := Option.map_eq_some_iff.mp whole
      simp only [matchLiteral, whole] at matched
      cases matched
      simp
  | none =>
      simp only [matchLiteral, whole] at matched
      obtain ⟨suffix, -, rfl⟩ := Option.map_eq_some_iff.mp matched
      simp

theorem IsTail.mono (tail : table.IsTail data) (keys : table.strings ⊆ other.strings)
    : other.IsTail data := by
  obtain ⟨nonempty, string, listed, ends⟩ := tail
  exact ⟨nonempty, string, keys listed, ends⟩

end Rom.Table

/-- A block found in a table is found in one with more strings, and a whole string stays whole. -/
theorem Block.find_mono {table other : Rom.Table} (keys : table.strings ⊆ other.strings)
    {block : Block} {found : Rom.Match} (matched : block.find table = some found)
    : ∃ better,
        block.find other = some better ∧ (found.kind = .exact → better.kind = .exact) := by
  cases kind : block.kind with
  | literal =>
      simp only [find, kind] at matched ⊢
      have held := Rom.Table.isSome_matchLiteral.mp (Option.isSome_of_eq_some matched)
      obtain ⟨better, known⟩ := Option.isSome_iff_exists.mp
        (Rom.Table.isSome_matchLiteral.mpr (held.imp (@keys _) (·.mono keys)))
      refine ⟨better, known, fun exact => ?_⟩
      have whole := (Rom.Table.kind_of_matchLiteral matched).mp exact
      exact (Rom.Table.kind_of_matchLiteral known).mpr (keys whole)
  | function anchor =>
      simp only [find, kind] at matched ⊢
      have listed := Rom.Table.isSome_matchExact.mp (Option.isSome_of_eq_some matched)
      obtain ⟨better, known⟩ := Option.isSome_iff_exists.mp
        (Rom.Table.isSome_matchExact.mpr (keys listed))
      refine ⟨better, known, fun _ => ?_⟩
      obtain ⟨address, -, rfl⟩ := Option.map_eq_some_iff.mp known
      rfl

end RomStrings
