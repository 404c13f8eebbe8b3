import Mathlib.Data.Fintype.Fin
import Mathlib.Tactic.FinCases

/-!
The text `JSON.stringify` makes of a string, and that it can be told apart from whatever follows.
-/

namespace VcalmStatus.Js

def hexDigitLower (n : Nat) : Char := if n < 10 then Char.ofNat (48 + n) else Char.ofNat (87 + n)

/-- How a control character is written: five have an escape of their own. -/
def escapeControl (n : Nat) : List Char :=
  match n with
  | 8 => ['\\', 'b']
  | 9 => ['\\', 't']
  | 10 => ['\\', 'n']
  | 12 => ['\\', 'f']
  | 13 => ['\\', 'r']
  | n => ['\\', 'u', '0', '0', hexDigitLower (n / 16), hexDigitLower (n % 16)]

def escapeChar (c : Char) : List Char :=
  if c = '"' then ['\\', '"']
  else if c = '\\' then ['\\', '\\']
  else if c.toNat < 32 then escapeControl c.toNat
  else [c]

/-- `JSON.stringify` of a string. -/
def quote (s : String) : String := "\"" ++ String.ofList (s.toList.flatMap escapeChar) ++ "\""

/-- Reads one character back. -/
def unescape : List Char → Option (Char × List Char)
  | '\\' :: 'b' :: cs => some (Char.ofNat 8, cs)
  | '\\' :: 't' :: cs => some (Char.ofNat 9, cs)
  | '\\' :: 'n' :: cs => some (Char.ofNat 10, cs)
  | '\\' :: 'f' :: cs => some (Char.ofNat 12, cs)
  | '\\' :: 'r' :: cs => some (Char.ofNat 13, cs)
  | '\\' :: 'u' :: '0' :: '0' :: hi :: lo :: cs =>
      some (Char.ofNat (16 * (hi.toNat - 48) +
        if lo.toNat < 58 then lo.toNat - 48 else lo.toNat - 87), cs)
  | '\\' :: c :: cs => some (c, cs)
  | c :: cs => some (c, cs)
  | [] => none

theorem unescape_of_ne {c : Char} (h : c ≠ '\\') (cs : List Char) :
    unescape (c :: cs) = some (c, cs) := by
  rw [unescape.eq_def]
  split <;> simp_all

theorem unescape_control (n : Fin 32) (cs : List Char) :
    unescape (escapeControl n ++ cs) = some (Char.ofNat n, cs) := by
  fin_cases n <;> rfl

theorem unescape_escapeChar (c : Char) (cs : List Char) :
    unescape (escapeChar c ++ cs) = some (c, cs) := by
  unfold escapeChar
  split <;> rename_i hquote
  · rw [hquote]
    rfl
  · split <;> rename_i hbackslash
    · rw [hbackslash]
      rfl
    · split <;> rename_i hcontrol
      · rw [unescape_control ⟨c.toNat, hcontrol⟩, Char.ofNat_toNat]
      · exact unescape_of_ne hbackslash cs

/-- No character is written so that it looks like the end of the string. -/
theorem escapeChar_head (c : Char) (cs rest : List Char) : escapeChar c ++ cs ≠ '"' :: rest := by
  intro h
  have hread := unescape_escapeChar c cs
  rw [h, unescape_of_ne (by decide), Option.some.injEq, Prod.mk.injEq] at hread
  rw [← hread.1] at h
  exact absurd h (by simp [escapeChar])

theorem flatMap_escapeChar_inj {s t x y : List Char}
    (h : s.flatMap escapeChar ++ '"' :: x = t.flatMap escapeChar ++ '"' :: y) :
    s = t ∧ x = y := by
  induction s generalizing t with
  | nil =>
      cases t with
      | nil => simpa using h
      | cons d t =>
          rw [List.flatMap_cons, List.append_assoc] at h
          exact absurd h.symm (escapeChar_head d _ _)
  | cons c s ih =>
      cases t with
      | nil =>
          rw [List.flatMap_cons, List.append_assoc] at h
          exact absurd h (escapeChar_head c _ _)
      | cons d t =>
          rw [List.flatMap_cons, List.flatMap_cons, List.append_assoc, List.append_assoc] at h
          have hread := congrArg unescape h
          rw [unescape_escapeChar, unescape_escapeChar, Option.some.injEq, Prod.mk.injEq] at hread
          obtain ⟨rfl, hrest⟩ := hread
          obtain ⟨rfl, hxy⟩ := ih hrest
          exact ⟨rfl, hxy⟩

/-- A quoted string and what follows it can be read back. -/
theorem quote_append_inj {s t x y : String} (h : quote s ++ x = quote t ++ y) :
    s = t ∧ x = y := by
  have hlist := congrArg String.toList h
  simp only [quote, String.toList_append, String.toList_ofList, List.append_assoc] at hlist
  obtain ⟨hst, hxy⟩ := flatMap_escapeChar_inj (List.append_cancel_left hlist)
  exact ⟨String.toList_inj.mp hst, String.toList_inj.mp hxy⟩

end VcalmStatus.Js
