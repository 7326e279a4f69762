/-
Base 64 with the standard alphabet and padding.  Three bytes make four symbols of
six bits; a last group of one or two bytes is filled up with `=`, so the length of
the result is always a multiple of four.
-/
import QueryView.Text.Basic

namespace QueryView
namespace Text

/-- The symbol for a value of six bits: capitals, small letters, digits, `+`, `/`. -/
def base64Symbol (n : Nat) : Char :=
  if n < 26 then Char.ofNat ('A'.toNat + n)
  else if n < 52 then Char.ofNat ('a'.toNat + (n - 26))
  else if n < 62 then Char.ofNat ('0'.toNat + (n - 52))
  else if n = 62 then '+'
  else '/'

def base64 : List UInt8 → Text
  | [] => []
  | [a] =>
    let n := a.toNat * 16
    [base64Symbol (n / 64), base64Symbol (n % 64), '=', '=']
  | [a, b] =>
    let n := (a.toNat * 256 + b.toNat) * 4
    [base64Symbol (n / 4096), base64Symbol (n / 64 % 64), base64Symbol (n % 64), '=']
  | a :: b :: c :: rest =>
    let n := (a.toNat * 256 + b.toNat) * 256 + c.toNat
    base64Symbol (n / 262144) :: base64Symbol (n / 4096 % 64) :: base64Symbol (n / 64 % 64) ::
      base64Symbol (n % 64) :: base64 rest

/-- Every group of one to three bytes takes four symbols. -/
theorem length_base64 (bytes : List UInt8) :
    (base64 bytes).length = 4 * ((bytes.length + 2) / 3) := by
  fun_induction base64 bytes with
  | case1 => rfl
  | case2 => simp
  | case3 => simp
  | case4 a b c rest _ ih => simp only [List.length_cons, ih]; omega

end Text
end QueryView
