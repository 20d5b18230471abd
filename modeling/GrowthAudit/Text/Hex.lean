/-!
# Hexadecimal codes

Code points in lower-case hexadecimal with a fixed number of digits, as escapes write them, and
back.  `readHex?_hexCode` says that a code reads back when it fits its width.
-/

namespace GrowthAudit.Text

def hexDigit (d : Nat) : Char := Nat.digitChar d

/-- The last `width` hexadecimal digits of a number. -/
def hexCode : (width : Nat) → Nat → List Char
  | 0, _ => []
  | width + 1, n => hexCode width (n / 16) ++ [hexDigit (n % 16)]

def hexValue? (c : Char) : Option Nat :=
  if '0' ≤ c ∧ c ≤ '9' then some (c.toNat - 48)
  else if 'a' ≤ c ∧ c ≤ 'f' then some (c.toNat - 87)
  else if 'A' ≤ c ∧ c ≤ 'F' then some (c.toNat - 55)
  else none

/-- The number that hexadecimal digits denote, `none` where one of them is no digit. -/
def readHex? (cs : List Char) : Option Nat :=
  cs.foldl (fun n? c => n?.bind fun n => (hexValue? c).map (16 * n + ·)) (some 0)

theorem hexValue?_hexDigit {d : Nat} (h : d < 16) : hexValue? (hexDigit d) = some d := by
  have : ∀ d : Fin 16, hexValue? (hexDigit d) = some d.val := by decide
  exact this ⟨d, h⟩

theorem readHex?_hexCode (width n : Nat) (h : n < Nat.pow 16 width) :
    readHex? (hexCode width n) = some n := by
  induction width generalizing n with
  | zero =>
    have hn : n = 0 := Nat.lt_one_iff.1 h
    rw [hn]
    rfl
  | succ width ih =>
    have hd : n / 16 < Nat.pow 16 width := by
      have h' : n < Nat.pow 16 width * 16 := h
      omega
    have hr := ih _ hd
    rw [readHex?] at hr
    simp only [hexCode, readHex?, List.foldl_append, hr, List.foldl_cons, List.foldl_nil,
      Option.bind_some, hexValue?_hexDigit (Nat.mod_lt n (by decide)), Option.map_some]
    congr 1
    omega

end GrowthAudit.Text
