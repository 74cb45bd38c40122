import Mathlib.Tactic
import Mathlib.Data.List.TakeWhile
import Accelrd.Library.Decimal

/-!
IEEE 754 double precision as sign, biased exponent and fraction, with the two
conversions a program meets when it prints a number and reads it back.

* `Binary64.magnitude`: finite values are multiples of `2^-1074`, so a magnitude
  is a natural number in that unit and no rounding is hidden in the model.
* `nearest`: correct rounding, half to even; what rounds stays below every double that
  it was below (`nearest_le`).
* `toFixed`: decimal notation with a given number of decimals, rounded half to
  even; `parse`: decimal notation, an exponent, `inf`, `infinity` or `nan` in any
  case, correctly rounded.
* `isSome_parse_toFixed`: what `toFixed` prints, `parse` accepts, for every value.
-/

/-- A double: sign, biased exponent, fraction. -/
structure Binary64 where
  sign : Bool
  exponent : Fin 2048
  fraction : Fin (2 ^ 52)
  deriving DecidableEq

namespace Binary64

open Decimal

/-! ### Values -/

/-- Infinity or not a number. -/
def isSpecial (x : Binary64) : Bool := x.exponent == 2047

def isNaN (x : Binary64) : Bool := x.isSpecial && x.fraction != 0

/-- The magnitude of a finite value, in units of `2^-1074`. -/
def magnitude (x : Binary64) : ℕ :=
  if x.exponent = 0 then x.fraction else (2 ^ 52 + x.fraction) * 2 ^ (x.exponent.val - 1)

/-- The nearest natural number to `a / b`, ties to even. -/
def roundHalfEven (a b : ℕ) : ℕ :=
  let q := a / b
  let r := a % b
  if 2 * r > b ∨ (2 * r = b ∧ q % 2 = 1) then q + 1 else q

/-- The double with the given sign and a magnitude of at most 53 significant bits;
infinity when the magnitude is too large. -/
def encode (sign : Bool) (mag : ℕ) : Binary64 :=
  if mag < 2 ^ 52 then ⟨sign, 0, Fin.ofNat _ mag⟩
  else
    let shift := Nat.log2 mag - 52
    if shift + 1 < 2047 then ⟨sign, Fin.ofNat _ (shift + 1), Fin.ofNat _ (mag / 2 ^ shift)⟩
    else ⟨sign, 2047, 0⟩

/-- The double nearest to `± num / den`, in units of `2^-1074`. -/
def nearest (sign : Bool) (num den : ℕ) : Binary64 :=
  let shift := Nat.log2 (num / den) - 52
  encode sign (roundHalfEven num (den * 2 ^ shift) * 2 ^ shift)

/-- The double nearest to `± m · 10^e`. -/
def ofDecimal (sign : Bool) (m : ℕ) (e : ℤ) : Binary64 :=
  nearest sign (m * 10 ^ e.toNat * 2 ^ 1074) (10 ^ (-e).toNat)

/-- The double nearest to an integer. -/
def ofInt (n : ℤ) : Binary64 := ofDecimal (n < 0) n.natAbs 0

/-- The quotient by a positive integer that is a double itself. -/
def divNat (x : Binary64) (d : ℕ) : Binary64 :=
  if x.isSpecial then x else nearest x.sign x.magnitude d

/-- The integral part of a finite value. -/
def trunc (x : Binary64) : ℤ :=
  if x.sign then -((x.magnitude / 2 ^ 1074 : ℕ) : ℤ) else (x.magnitude / 2 ^ 1074 : ℕ)

/-! ### Rounding stays below a double -/

lemma roundHalfEven_le {a b q : ℕ} (h : a ≤ b * q) : roundHalfEven a b ≤ q := by
  have hdiv : a / b ≤ q := Nat.div_le_of_le_mul h
  rw [roundHalfEven]
  split_ifs with hup
  · rcases hdiv.lt_or_eq with hlt | heq
    · exact hlt
    · -- `a` is `b * q`, so that nothing is left to round up
      have hsum : b * q + a % b = a := by rw [← heq, Nat.div_add_mod]
      have hmod : a % b = 0 := Nat.le_zero.mp (by linarith)
      rw [hmod, mul_zero] at hup
      rcases hup with hneg | ⟨hb, hodd⟩
      · exact absurd hneg (Nat.not_lt_zero b)
      · rw [← hb, Nat.div_zero] at hodd
        exact absurd hodd (by decide)
  · exact hdiv

lemma log2_le_log2 {m n : ℕ} (h : m ≤ n) : Nat.log2 m ≤ Nat.log2 n := by
  rw [Nat.log2_eq_log_two, Nat.log2_eq_log_two]
  exact Nat.log_mono_right h

/-- A significand has 53 bits. -/
lemma significand_mem {m shift : ℕ} (hne : m ≠ 0) (hshift : Nat.log2 m = 52 + shift) :
    2 ^ 52 ≤ m / 2 ^ shift ∧ m / 2 ^ shift < 2 ^ 53 := by
  rw [Nat.le_div_iff_mul_le (by positivity), Nat.div_lt_iff_lt_mul (by positivity), ← pow_add,
    ← pow_add, ← hshift]
  exact ⟨Nat.log2_self_le hne, (Nat.log2_lt hne).mp (by omega)⟩

/-- What does not fit into the significand is cut off. -/
lemma encode_le {s : Bool} {m : ℕ} (h : Nat.log2 m < 2098) :
    (encode s m).isSpecial = false ∧ (encode s m).magnitude ≤ m := by
  rw [encode]
  by_cases hsmall : m < 2 ^ 52
  · rw [if_pos hsmall]
    refine ⟨rfl, ?_⟩
    rw [magnitude, if_pos rfl]
    exact Nat.mod_le _ _
  · rw [if_neg hsmall]
    have hne : m ≠ 0 := by
      rintro rfl
      exact hsmall (by decide)
    obtain ⟨shift, hshift⟩ := Nat.exists_eq_add_of_le ((Nat.le_log2 hne).mpr (not_lt.mp hsmall))
    have hexp : (Fin.ofNat 2048 (shift + 1)).val = shift + 1 := Nat.mod_eq_of_lt (by omega)
    obtain ⟨hlow, hhigh⟩ := significand_mem hne hshift
    dsimp only
    rw [hshift, Nat.add_sub_cancel_left, if_pos (by omega)]
    constructor
    · rw [isSpecial, beq_eq_false_iff_ne, ne_eq, Fin.ext_iff, hexp]
      have hval : (2047 : Fin 2048).val = 2047 := rfl
      omega
    · rw [magnitude, if_neg (by rw [Fin.ext_iff, hexp]; simp), hexp, Nat.add_sub_cancel]
      have hfraction : 2 ^ 52 + m / 2 ^ shift % 2 ^ 52 = m / 2 ^ shift := by omega
      calc (2 ^ 52 + m / 2 ^ shift % 2 ^ 52) * 2 ^ shift
          = m / 2 ^ shift * 2 ^ shift := by rw [hfraction]
        _ ≤ m := Nat.div_mul_le_self _ _

/-- A quotient of at most `M`, which has at most 53 significant bits, rounds to at
most `M`. -/
lemma nearest_le {s : Bool} {num den M : ℕ} (hle : num ≤ den * M)
    (hdvd : 2 ^ (Nat.log2 M - 52) ∣ M) (hlog : Nat.log2 M < 2098) :
    (nearest s num den).isSpecial = false ∧ (nearest s num den).magnitude ≤ M := by
  have hquot : Nat.log2 (num / den) ≤ Nat.log2 M := log2_le_log2 (Nat.div_le_of_le_mul hle)
  obtain ⟨q, hq⟩ := (pow_dvd_pow 2 (Nat.sub_le_sub_right hquot 52)).trans hdvd
  rw [nearest]
  set shift := Nat.log2 (num / den) - 52
  have hround : roundHalfEven num (den * 2 ^ shift) * 2 ^ shift ≤ M := by
    rw [hq, mul_comm]
    exact Nat.mul_le_mul_left _ (roundHalfEven_le (by rw [mul_assoc, ← hq]; exact hle))
  obtain ⟨hspecial, hmag⟩ := encode_le (s := s) ((log2_le_log2 hround).trans_lt hlog)
  exact ⟨hspecial, hmag.trans hround⟩

lemma ofInt_le {n : ℤ} {M : ℕ} (hle : n.natAbs * 2 ^ 1074 ≤ M)
    (hdvd : 2 ^ (Nat.log2 M - 52) ∣ M) (hlog : Nat.log2 M < 2098) :
    (ofInt n).isSpecial = false ∧ (ofInt n).magnitude ≤ M := by
  refine nearest_le ?_ hdvd hlog
  simpa only [Int.toNat_zero, neg_zero, pow_zero, mul_one, one_mul] using hle

lemma divNat_le {x : Binary64} {d M : ℕ} (hx : x.isSpecial = false) (hle : x.magnitude ≤ d * M)
    (hdvd : 2 ^ (Nat.log2 M - 52) ∣ M) (hlog : Nat.log2 M < 2098) :
    (x.divNat d).isSpecial = false ∧ (x.divNat d).magnitude ≤ M := by
  rw [divNat, hx]
  exact nearest_le hle hdvd hlog

/-! ### Printing -/

/-- The minus sign of a negative value. -/
def signChars (x : Binary64) : List Char := if x.sign then ['-'] else []

/-- The magnitude of a finite value with `p ≥ 1` decimals. -/
def fixedNumeral (p : ℕ) (x : Binary64) : List Char :=
  let n := roundHalfEven (x.magnitude * 10 ^ p) (2 ^ 1074)
  Nat.toDigits 10 (n / 10 ^ p) ++ '.' :: zeroPad p (n % 10 ^ p)

/-- `{x:.p}` for `p ≥ 1` decimals. -/
def toFixed (p : ℕ) (x : Binary64) : String :=
  if x.isNaN then "NaN"
  else if x.isSpecial then String.ofList (x.signChars ++ ['i', 'n', 'f'])
  else String.ofList (x.signChars ++ x.fixedNumeral p)

/-! ### Reading -/

/-- A sign in front, if any: negative or not, and the rest. -/
def splitSign : List Char → Bool × List Char
  | '-' :: r => (true, r)
  | '+' :: r => (false, r)
  | r => (false, r)

/-- An exponent up to the end of the word; no exponent counts as `0`. -/
def parseExponent : List Char → Option ℤ
  | [] => some 0
  | c :: r =>
      if c = 'e' ∨ c = 'E' then
        let (neg, ds) := splitSign r
        if ds ≠ [] ∧ ds.all Char.isDigit then
          let e : ℤ := Nat.ofDigitChars 10 ds 0
          some (if neg then -e else e)
        else none
      else none

/-- Decimal digits with at most one point among them and at least one digit, then
an exponent: the mantissa and the power of ten. -/
def parseNumber (cs : List Char) : Option (ℕ × ℤ) :=
  let int := cs.takeWhile Char.isDigit
  let (frac, rest) := match cs.dropWhile Char.isDigit with
    | '.' :: r => (r.takeWhile Char.isDigit, r.dropWhile Char.isDigit)
    | r => ([], r)
  if int = [] ∧ frac = [] then none
  else (parseExponent rest).map fun e => (Nat.ofDigitChars 10 (int ++ frac) 0, e - frac.length)

/-- `str::parse::<f64>`. -/
def parse (s : String) : Option Binary64 :=
  let (sign, body) := splitSign s.toList
  let word := body.map Char.toLower
  if word = "nan".toList then some ⟨sign, 2047, 1⟩
  else if word = "inf".toList ∨ word = "infinity".toList then some ⟨sign, 2047, 0⟩
  else (parseNumber body).map fun (m, e) => ofDecimal sign m e

/-! ### What is printed is accepted -/

lemma parseNumber_fixed (p n m : ℕ) :
    (parseNumber (Nat.toDigits 10 n ++ '.' :: zeroPad p m)).isSome := by
  have hint : ∀ c ∈ Nat.toDigits 10 n, c.isDigit := fun c hc =>
    Nat.isDigit_of_mem_toDigits (by omega) (by omega) hc
  have hfrac : ∀ c ∈ zeroPad p m, c.isDigit := fun c hc => isDigit_of_mem_zeroPad hc
  have hdot : ('.' : Char).isDigit = false := by decide
  have htake : (Nat.toDigits 10 n ++ '.' :: zeroPad p m).takeWhile Char.isDigit
      = Nat.toDigits 10 n := by
    rw [List.takeWhile_append_of_pos hint, List.takeWhile_cons_of_neg (by simp [hdot]),
      List.append_nil]
  have hdrop : (Nat.toDigits 10 n ++ '.' :: zeroPad p m).dropWhile Char.isDigit
      = '.' :: zeroPad p m := by
    rw [List.dropWhile_append_of_pos hint, List.dropWhile_cons_of_neg (by simp [hdot])]
  have hrest : (zeroPad p m).dropWhile Char.isDigit = [] := List.dropWhile_eq_nil_iff.mpr hfrac
  simp [parseNumber, htake, hdrop, hrest, parseExponent]

/-- The sign that was printed is the sign that is read. -/
lemma splitSign_signChars (x : Binary64) {c : Char} (h1 : c ≠ '-') (h2 : c ≠ '+')
    (r : List Char) : splitSign (x.signChars ++ c :: r) = (x.sign, c :: r) := by
  rw [signChars]
  cases x.sign with
  | true => rfl
  | false => simp [splitSign, h1, h2]

/-- **What is printed is accepted**: the fixed notation of every double, `NaN` and
the infinities included, is read back as a double. -/
theorem isSome_parse_toFixed (p : ℕ) (x : Binary64) : (parse (toFixed p x)).isSome := by
  rw [toFixed]
  split_ifs with hnan hspecial
  · decide
  · rw [parse, String.toList_ofList, splitSign_signChars x (by decide) (by decide)]
    rfl
  · have hnum : (parseNumber (x.fixedNumeral p)).isSome := parseNumber_fixed p _ _
    obtain ⟨c, r, hc, hdigit⟩ : ∃ c r, x.fixedNumeral p = c :: r ∧ c.isDigit := by
      obtain ⟨c, r, hc⟩ := List.exists_cons_of_ne_nil (Nat.toDigits_ne_nil (b := 10)
        (n := roundHalfEven (x.magnitude * 10 ^ p) (2 ^ 1074) / 10 ^ p))
      refine ⟨c, _, by rw [fixedNumeral, hc]; rfl, ?_⟩
      exact Nat.isDigit_of_mem_toDigits (b := 10) (by omega) (by omega) (by rw [hc]; simp)
    have h1 : c ≠ '-' := by rintro rfl; simp at hdigit
    have h2 : c ≠ '+' := by rintro rfl; simp at hdigit
    rw [parse, String.toList_ofList, hc, splitSign_signChars x h1 h2, ← hc]
    dsimp only
    split_ifs
    · rfl
    · rfl
    · rw [Option.isSome_map]
      exact hnum

end Binary64
