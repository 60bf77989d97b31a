/-!
# Hexadecimal digits

Fixed-width hexadecimal, as escapes write it: `hexDigits w n` gives the last `w` digits of `n`,
most significant first, in lower case. Reading takes either case and refuses anything that is no
digit. `hexValue?_hexDigits` ties the two together: what was written reads back as `n` modulo
`16 ^ w`.
-/

namespace TokenScan

/-- The value of a hexadecimal digit, in either case. -/
def hexDigit? (c : Char) : Option Nat :=
  if '0' ≤ c ∧ c ≤ '9' then some (c.toNat - '0'.toNat)
  else if 'a' ≤ c ∧ c ≤ 'f' then some (c.toNat - 'a'.toNat + 10)
  else if 'A' ≤ c ∧ c ≤ 'F' then some (c.toNat - 'A'.toNat + 10)
  else none

/-- The value of a run of hexadecimal digits read after `acc`, if all of them are digits. -/
def hexValueFrom? (acc : Nat) : List Char → Option Nat
  | [] => some acc
  | c :: cs => (hexDigit? c).bind fun d ↦ hexValueFrom? (16 * acc + d) cs

/-- The value of a run of hexadecimal digits, if all of them are digits. -/
def hexValue? (cs : List Char) : Option Nat := hexValueFrom? 0 cs

/-- The last `w` hexadecimal digits of `n`, most significant first, in lower case. -/
def hexDigits : Nat → Nat → List Char
  | 0, _ => []
  | w + 1, n => hexDigits w (n / 16) ++ [Nat.digitChar (n % 16)]

@[simp] theorem length_hexDigits (w n : Nat) : (hexDigits w n).length = w := by
  induction w generalizing n with
  | zero => rfl
  | succ w ih => simp [hexDigits, ih]

/-- Each of the sixteen digits reads back as its own value. -/
theorem hexDigit?_digitChar {d : Nat} (h : d < 16) : hexDigit? (Nat.digitChar d) = some d := by
  revert d
  decide

theorem hexValueFrom?_append (acc : Nat) (xs ys : List Char) :
    hexValueFrom? acc (xs ++ ys) = (hexValueFrom? acc xs).bind fun a ↦ hexValueFrom? a ys := by
  induction xs generalizing acc with
  | nil => rfl
  | cons c cs ih =>
    cases h : hexDigit? c <;> simp [hexValueFrom?, h, ih]

/-- **Digits read back**: `w` digits hold exactly the residue modulo `16 ^ w`. -/
theorem hexValue?_hexDigits (w n : Nat) : hexValue? (hexDigits w n) = some (n % Nat.pow 16 w) := by
  induction w generalizing n with
  | zero => simp [hexDigits, hexValue?, hexValueFrom?, Nat.mod_one]
  | succ w ih =>
    have hd : hexDigit? (Nat.digitChar (n % 16)) = some (n % 16) :=
      hexDigit?_digitChar (Nat.mod_lt _ (by decide))
    simp only [hexValue?] at ih
    have hpow : Nat.pow 16 (w + 1) = 16 * Nat.pow 16 w := Nat.pow_succ'
    simp only [hexValue?, hexDigits, hexValueFrom?_append, ih, Option.bind_some, hexValueFrom?, hd]
    rw [hpow, Nat.mod_mul, Nat.add_comm]

end TokenScan
