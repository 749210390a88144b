import Mathlib.Data.List.DropRight
import Handover.Json.Printer
import Handover.Json.Decode

/-!
# Strings and numbers in JSON text

Any string is read as it was written, and any whole number in range, whatever follows. A double is if its text is, where
the text stands alone: `readValue_float`.
-/

namespace Handover

namespace Draft
variable {c : Char} {cs rest text : List Char} {fuel : Nat}

/-! ## Strings -/

theorem hexValue_hexDigit : ∀ n, n < 16 → hexValue? (Json.hexDigit n) = some n := by decide

theorem hexFour_control (control : c.toNat < 32) (rest : List Char) :
    hexFour ('0' :: '0' :: Json.hexDigit (c.toNat / 16) :: Json.hexDigit (c.toNat % 16) :: rest) =
      .ok (c.toNat, rest) := by
  have zero : hexValue? '0' = some 0 := by decide
  have high := hexValue_hexDigit (c.toNat / 16) (by omega)
  have low := hexValue_hexDigit (c.toNat % 16) (by omega)
  have value : ((0 * 16 + 0) * 16 + c.toNat / 16) * 16 + c.toNat % 16 = c.toNat := by omega
  simp only [hexFour, zero, high, low, value]

theorem ofNat_of_toNat {n : Nat} (same : c.toNat = n) : Char.ofNat n = c := by
  rw [← same]
  exact Char.ofNat_toNat c

theorem stringRest_plain (quote : c ≠ '"') (backslash : c ≠ '\\') (printable : ¬ c.toNat < 32) (fuel : Nat)
    (text rest : List Char) : stringRest (fuel + 1) false text (c :: rest) = stringRest fuel false (c :: text) rest := by
  rw [stringRest, if_neg printable]
  · exact quote
  · exact backslash

theorem stringRest_escape (c : Char) (fuel : Nat) (text rest : List Char) :
    stringRest (fuel + 1) false text (Json.escape c ++ rest) = stringRest fuel false (c :: text) rest := by
  unfold Json.escape
  split
  · subst_vars; rfl
  split
  · subst_vars; rfl
  split
  · subst_vars; rfl
  split
  · subst_vars; rfl
  split
  · subst_vars; rfl
  split
  · rename_i same
    rw [← ofNat_of_toNat same]
    rfl
  split
  · rename_i same
    rw [← ofNat_of_toNat same]
    rfl
  split
  · rename_i control
    have four := hexFour_control control rest
    have trail : isTrail c.toNat = false := by simp [isTrail]; omega
    have lead : isLead c.toNat = false := by simp [isLead]; omega
    have same := Char.ofNat_toNat c
    simp only [List.cons_append, List.nil_append]
    rw [stringRest]
    simp only [four, trail, lead, same]
    simp
  · rename_i quote backslash _ _ _ _ _ printable
    exact stringRest_plain quote backslash printable fuel text rest

theorem stringRest_quoted (enough : cs.length < fuel) (text rest : List Char) :
    stringRest fuel false text (cs.flatMap Json.escape ++ '"' :: rest) =
      .whole (String.ofList (text.reverse ++ cs)) rest := by
  induction cs generalizing fuel text with
  | nil =>
    obtain ⟨fuel, rfl⟩ := Nat.exists_eq_add_one_of_ne_zero (Nat.ne_of_gt enough)
    simp [stringRest]
  | cons c cs ih =>
    obtain ⟨fuel, rfl⟩ := Nat.exists_eq_add_one_of_ne_zero (Nat.ne_of_gt (Nat.lt_of_le_of_lt (Nat.zero_le _) enough))
    have enough : cs.length < fuel := by simpa using enough
    rw [List.flatMap_cons, List.append_assoc, stringRest_escape, ih enough]
    simp

theorem escape_length (cs : List Char) : cs.length ≤ (cs.flatMap Json.escape).length := by
  induction cs with
  | nil => exact Nat.le_refl _
  | cons c cs ih =>
    have one : 1 ≤ (Json.escape c).length := by
      unfold Json.escape
      repeat' split
      all_goals simp
    simp only [List.flatMap_cons, List.length_append, List.length_cons]
    omega

theorem readString_quoted (s : String) (rest : List Char) :
    readString (s.toList.flatMap Json.escape ++ '"' :: rest) = .whole s rest := by
  have length := escape_length s.toList
  rw [readString, stringRest_quoted (by rw [List.length_append]; omega)]
  simp

theorem quote_append (s : String) (rest : List Char) :
    Json.quote s ++ rest = '"' :: (s.toList.flatMap Json.escape ++ '"' :: rest) := by
  simp [Json.quote]

theorem readValue_quote (s : String) (rest : List Char) (fuel : Nat) :
    readValue (fuel + 1) (Json.quote s ++ rest) = (.str s, some rest) := by
  have read := readString_quoted s rest
  rw [quote_append, readValue]
  simp [skipSpace, isSpace, read]

end Draft

namespace Numeral

theorem value_append (cs : List Char) (c : Char) : value (cs ++ [c]) = value cs * 10 + (c.toNat - '0'.toNat) := by
  rw [value, value, List.foldl_append]
  rfl

theorem value_toDigits (n : Nat) : value (Nat.toDigits 10 n) = n := by
  induction n using Nat.strongRecOn with
  | _ n ih =>
    have digit : ∀ d < 10, d.digitChar.toNat - '0'.toNat = d := fun d small => Nat.toNat_digitChar_sub_48_of_lt_ten small
    rcases Nat.lt_or_ge n 10 with small | large
    · rw [Nat.toDigits_of_lt_base small]
      have own := digit n small
      simpa [value] using own
    · rw [Nat.toDigits_of_base_le (by decide) large, value_append, ih (n / 10) (by omega),
        digit (n % 10) (Nat.mod_lt _ (by decide))]
      omega

end Numeral

namespace Draft
variable {cs rest left whole : List Char} {d : Draft} {negative : Bool} {fuel : Nat} {c : Char}

/-! ## Numbers -/

/-- A number that is read before this ends there. -/
def EndsNumber (rest : List Char) : Prop := ∀ c ∈ rest.head?, c ≠ '.' ∧ c ≠ 'e' ∧ c ≠ 'E' ∧ c.isDigit = false

theorem digitsOf_append (ends : EndsNumber rest) (cs : List Char) : digitsOf (cs ++ rest) = digitsOf cs := by
  have none : rest.takeWhile Char.isDigit = [] := by
    cases rest with
    | nil => rfl
    | cons c rest => rw [List.takeWhile_cons, (ends c rfl).2.2.2]; rfl
  rw [digitsOf, List.takeWhile_append, none, List.append_nil]
  split
  · rename_i all
    exact (List.takeWhile_prefix _).eq_of_length all |>.symm
  · rfl

theorem drop_digitsOf (cs rest : List Char) :
    (cs ++ rest).drop (digitsOf cs).length = cs.drop (digitsOf cs).length ++ rest :=
  List.drop_append_of_le_length (List.takeWhile_prefix _).length_le

/-- The sign of an exponent, and what is behind it. -/
def exponentSign (cs : List Char) : Int × List Char :=
  match cs with
  | '-' :: rest => (-1, rest)
  | '+' :: rest => (1, rest)
  | rest => (1, rest)

def exponentDigits (sign : Int) (cs : List Char) : Option (Int × List Char) ⊕ List Char :=
  if (digitsOf cs).isEmpty then .inr cs
  else .inl (some (sign * Numeral.value (digitsOf cs), cs.drop (digitsOf cs).length))

theorem exponentPart_cons (e : Char) (cs : List Char) : exponentPart (e :: cs) =
    if e = 'e' ∨ e = 'E' then exponentDigits (exponentSign cs).1 (exponentSign cs).2 else .inl none := rfl

theorem exponentSign_append (c : Char) (cs rest : List Char) :
    exponentSign (c :: cs ++ rest) = ((exponentSign (c :: cs)).1, (exponentSign (c :: cs)).2 ++ rest) := by
  by_cases minus : c = '-'
  · subst minus
    rfl
  · by_cases plus : c = '+'
    · subst plus
      rfl
    · simp [exponentSign, minus, plus]

theorem exponentDigits_append (ends : EndsNumber rest) {sign : Int} {power : Option (Int × List Char)}
    (read : exponentDigits sign cs = .inl power) :
    exponentDigits sign (cs ++ rest) = .inl (power.map fun p => (p.1, p.2 ++ rest)) := by
  unfold exponentDigits at read ⊢
  rw [digitsOf_append ends, drop_digitsOf]
  split at read
  · cases read
  · rename_i some
    cases read
    rw [if_neg some]
    rfl

theorem exponentPart_append (ends : EndsNumber rest) {power : Option (Int × List Char)}
    (read : exponentPart cs = .inl power) :
    exponentPart (cs ++ rest) = .inl (power.map fun p => (p.1, p.2 ++ rest)) := by
  cases cs with
  | nil =>
    cases read
    cases rest with
    | nil => rfl
    | cons c rest =>
      obtain ⟨_, small, large, _⟩ := ends c rfl
      simp [exponentPart_cons, small, large]
  | cons e cs =>
    rw [exponentPart_cons] at read
    rw [List.cons_append, exponentPart_cons]
    split at read
    · rename_i exponent
      rw [if_pos exponent]
      cases cs with
      | nil => cases read
      | cons c cs =>
        rw [exponentSign_append]
        exact exponentDigits_append ends read
    · rename_i other
      cases read
      rw [if_neg other]
      rfl

/-- The end of a number whose digits and places are known; `real` says that it has a point. -/
def numberEnd (negative : Bool) (digits : List Char) (places : Nat) (real : Bool) (cs : List Char) :
    Draft × Option (List Char) :=
  match exponentPart cs with
  | .inr rest => (brokenNumber rest, none)
  | .inl (some (e, rest)) => (realNumber negative (Numeral.value digits) (e - places), some rest)
  | .inl none =>
    if real then (realNumber negative (Numeral.value digits) (-(places : Int)), some cs)
    else (wholeNumber negative (Numeral.value digits), some cs)

theorem numberRest_point (negative : Bool) (whole cs : List Char) : numberRest negative whole ('.' :: cs) =
    if (digitsOf cs).isEmpty then (brokenNumber cs, none)
    else numberEnd negative (whole ++ digitsOf cs) (digitsOf cs).length true (cs.drop (digitsOf cs).length) := rfl

theorem numberRest_whole (negative : Bool) (whole : List Char) (plain : ∀ c ∈ cs.head?, c ≠ '.') :
    numberRest negative whole cs = numberEnd negative whole 0 false cs := by
  unfold numberRest
  split
  · exact absurd rfl (plain _ rfl)
  · rfl

theorem numberEnd_append (ends : EndsNumber rest) {digits : List Char} {places : Nat} {real : Bool}
    (read : numberEnd negative digits places real cs = (d, some left)) :
    numberEnd negative digits places real (cs ++ rest) = (d, some (left ++ rest)) := by
  unfold numberEnd at read ⊢
  cases power : exponentPart cs with
  | inr rest =>
    rw [power] at read
    cases read
  | inl power' =>
    rw [exponentPart_append ends power]
    rw [power] at read
    cases power' with
    | none =>
      dsimp only [Option.map_none] at read ⊢
      split at read <;> cases read <;> simp_all
    | some p =>
      cases read
      rfl

theorem numberRest_append (ends : EndsNumber rest) (read : numberRest negative whole cs = (d, some left)) :
    numberRest negative whole (cs ++ rest) = (d, some (left ++ rest)) := by
  by_cases point : ∃ after, cs = '.' :: after
  · obtain ⟨after, rfl⟩ := point
    rw [numberRest_point] at read
    rw [List.cons_append, numberRest_point, digitsOf_append ends, drop_digitsOf]
    split at read
    · cases read
    · rename_i some
      rw [if_neg some]
      exact numberEnd_append ends read
  · have plain : ∀ c ∈ cs.head?, c ≠ '.' := by
      rintro c first rfl
      cases cs with
      | nil => cases first
      | cons c cs =>
        cases first
        exact point ⟨cs, rfl⟩
    have plain' : ∀ c ∈ (cs ++ rest).head?, c ≠ '.' := by
      intro c first
      cases cs with
      | nil => exact (ends c first).1
      | cons => exact plain c first
    rw [numberRest_whole negative whole plain] at read
    rw [numberRest_whole negative whole plain']
    exact numberEnd_append ends read

theorem readNumber_zero (negative : Bool) (cs : List Char) : readNumber negative ('0' :: cs) =
    if cs.head?.any Char.isDigit then (.stuck .grammar .grammar, none) else numberRest negative ['0'] cs := by
  cases cs <;> rfl

theorem readNumber_other (negative : Bool) (other : ∀ after, cs ≠ '0' :: after) : readNumber negative cs =
    if (digitsOf cs).isEmpty then (brokenNumber cs, none)
    else numberRest negative (digitsOf cs) (cs.drop (digitsOf cs).length) := by
  unfold readNumber
  split
  · exact absurd rfl (other _)
  · rfl

theorem readNumber_append (ends : EndsNumber rest) (read : readNumber negative cs = (d, some left)) :
    readNumber negative (cs ++ rest) = (d, some (left ++ rest)) := by
  -- Behind a zero no digit may stand, and behind other digits they go on as far as they can.
  by_cases zero : ∃ after, cs = '0' :: after
  · obtain ⟨after, rfl⟩ := zero
    rw [readNumber_zero] at read
    rw [List.cons_append, readNumber_zero]
    split at read
    · cases read
    · rename_i single
      have single' : ¬ (after ++ rest).head?.any Char.isDigit = true := by
        cases after with
        | cons => exact single
        | nil =>
          cases rest with
          | nil => exact single
          | cons c rest =>
            have ended := (ends c rfl).2.2.2
            simp [ended]
      rw [if_neg single']
      exact numberRest_append ends read
  · have other : ∀ after, cs ≠ '0' :: after := fun after same => zero ⟨after, same⟩
    rw [readNumber_other negative other] at read
    split at read
    · cases read
    · rename_i some
      have other' : ∀ after, cs ++ rest ≠ '0' :: after := by
        intro after same
        cases cs with
        | nil => exact some rfl
        | cons c cs =>
          cases same
          exact other cs rfl
      rw [readNumber_other negative other', digitsOf_append ends, drop_digitsOf, if_neg some]
      exact numberRest_append ends read

theorem toDigits_head (n : Nat) (cs : List Char) (zero : Nat.toDigits 10 n = '0' :: cs) : n = 0 := by
  induction n using Nat.strongRecOn generalizing cs with
  | _ n ih =>
    rcases Nat.lt_or_ge n 10 with small | large
    · rw [Nat.toDigits_of_lt_base small] at zero
      exact Nat.digitChar_eq_zero.mp (List.cons.inj zero).1
    · rw [Nat.toDigits_of_base_le (by decide) large] at zero
      cases before : Nat.toDigits 10 (n / 10) with
      | nil => exact absurd before Nat.toDigits_ne_nil
      | cons c before' =>
        rw [before] at zero
        obtain ⟨rfl, _⟩ := List.cons.inj zero
        have none := ih (n / 10) (by omega) before' before
        omega

theorem readNumber_toDigits (negative : Bool) (n : Nat) :
    readNumber negative (Nat.toDigits 10 n) = (wholeNumber negative n, some []) := by
  by_cases zero : n = 0
  · subst zero
    rw [Nat.toDigits_zero]
    rfl
  · have other : ∀ after, Nat.toDigits 10 n ≠ '0' :: after := fun after same => zero (toDigits_head n after same)
    have digits : ∀ c ∈ Nat.toDigits 10 n, c.isDigit = true :=
      fun c there => Nat.isDigit_of_mem_toDigits (by decide) (by decide) there
    have all : digitsOf (Nat.toDigits 10 n) = Nat.toDigits 10 n := List.takeWhile_eq_self_iff.mpr digits
    have some : ¬ (Nat.toDigits 10 n).isEmpty = true := by simp [Nat.toDigits_ne_nil]
    rw [readNumber_other negative other, all, if_neg some, List.drop_length,
      numberRest_whole _ _ fun c first => by cases first]
    simp [numberEnd, exponentPart, Numeral.value_toDigits]

/-! ## Values -/

/-- Blanks in front of a value do not matter. -/
theorem readValue_skipSpace (fuel : Nat) (cs : List Char) : readValue fuel (skipSpace cs) = readValue fuel cs := by
  cases fuel with
  | zero => rfl
  | succ fuel => rw [readValue, readValue, skipSpace, skipSpace, List.dropWhile_idempotent]

theorem digit_not_space (digit : c.isDigit = true) : isSpace c = false := by
  rw [Bool.eq_false_iff]
  intro space
  simp only [isSpace, Bool.or_eq_true, decide_eq_true_eq] at space
  rcases space with ((rfl | rfl) | rfl) | rfl <;> exact absurd digit (by decide)

theorem readValue_digit (digit : c.isDigit = true) (fuel : Nat) (cs : List Char) :
    readValue (fuel + 1) (c :: cs) = readNumber false (c :: cs) := by
  have start : skipSpace (c :: cs) = c :: cs := by
    rw [skipSpace, List.dropWhile_cons, digit_not_space digit]
    rfl
  rw [readValue, start]
  -- No bracket, quote, sign or word starts with a digit.
  split
  all_goals try (rename_i same; cases same)
  all_goals try exact absurd digit (by decide)
  exact if_pos digit

theorem readValue_minus (fuel : Nat) (cs : List Char) : readValue (fuel + 1) ('-' :: cs) = readNumber true cs := by
  rw [readValue]
  rfl

end Draft

namespace Double

/-- The text of the number is read as the number, to its end. This is what is assumed of a codec of numbers. The reader
here rounds correctly; one that takes a faster way may miss the last bit of a few numbers, and those are not legible to
it. -/
def Legible (d : Double) : Prop := Draft.readValue 1 d.jsonText.toList = (.float d, some [])

end Double

namespace Draft
variable {cs rest left whole : List Char} {d : Draft} {negative : Bool} {fuel : Nat} {c : Char}

theorem readValue_intText {i : Int} (low : -(Nat.pow 2 63 : Int) ≤ i) (high : i < (Nat.pow 2 64 : Int))
    (ends : EndsNumber rest) (fuel : Nat) :
    readValue (fuel + 1) (Json.intText i ++ rest) = (.int i, some rest) := by
  unfold Json.intText
  split
  · rename_i negative
    have read := readNumber_append ends (readNumber_toDigits true i.natAbs)
    have some : i.natAbs ≠ 0 := by omega
    have within : i.natAbs ≤ Nat.pow 2 63 := by omega
    have own : -(i.natAbs : Int) = i := by omega
    rw [List.cons_append, readValue_minus, read, wholeNumber, if_pos rfl, if_neg some, if_pos within, own]
    rfl
  · rename_i positive
    have read := readNumber_append ends (readNumber_toDigits false i.natAbs)
    have within : i.natAbs < Nat.pow 2 64 := by omega
    have own : (i.natAbs : Int) = i := by omega
    cases digits : Nat.toDigits 10 i.natAbs with
    | nil => exact absurd digits Nat.toDigits_ne_nil
    | cons c cs =>
      have digit : c.isDigit = true :=
        Nat.isDigit_of_mem_toDigits (b := 10) (n := i.natAbs) (by decide) (by decide) (digits ▸ .head _)
      rw [digits, List.cons_append, wholeNumber, if_neg nofun, if_pos within, own] at read
      rw [List.cons_append, readValue_digit digit, read]
      rfl

theorem readWord_value (value : Draft) (word cs : List Char) :
    (readWord value word cs).1 = value ∨ ∃ b, (readWord value word cs).1 = .stuck b b := by
  induction word generalizing cs with
  | nil => exact .inl rfl
  | cons w word ih =>
    cases cs with
    | nil => exact .inr ⟨_, rfl⟩
    | cons c cs =>
      rw [readWord]
      split
      · exact ih cs
      · exact .inr ⟨_, rfl⟩

/-- What a number is read from starts with a sign or a digit. -/
theorem float_start {d : Double} (read : readValue (fuel + 1) cs = (.float d, some left)) :
    (∃ after, skipSpace cs = '-' :: after ∧ readNumber true after = (.float d, some left)) ∨
    ∃ c after, skipSpace cs = c :: after ∧ c.isDigit = true ∧ readNumber false (c :: after) = (.float d, some left) := by
  have word : ∀ value word cs, readWord value word cs = (.float d, some left) → value = .float d := by
    intro value word cs same
    rcases readWord_value value word cs with own | ⟨_, stuck⟩
    · rw [← own, same]
    · rw [same] at stuck
      cases stuck
  rw [readValue] at read
  split at read
  · cases read
  · split at read <;> cases read
  · cases read
  · cases read
  · cases word _ _ _ read
  · cases word _ _ _ read
  · cases word _ _ _ read
  · rename_i after start
    exact .inl ⟨after, start, read⟩
  · rename_i c after _ _ _ _ _ _ _ start
    split at read
    · rename_i digit
      exact .inr ⟨c, after, start, digit, read⟩
    · cases read

theorem skipSpace_append (start : skipSpace cs = c :: whole) (rest : List Char) :
    skipSpace (cs ++ rest) = c :: whole ++ rest := by
  have start' : cs.dropWhile isSpace = c :: whole := start
  rw [skipSpace, List.dropWhile_append, start']
  rfl

theorem readValue_float {d : Double} (legible : d.Legible) (ends : EndsNumber rest) (fuel : Nat) :
    readValue (fuel + 1) (d.jsonText.toList ++ rest) = (.float d, some rest) := by
  rw [← readValue_skipSpace]
  rcases float_start legible with ⟨after, start, read⟩ | ⟨c, after, start, digit, read⟩
  · rw [skipSpace_append start, List.cons_append, readValue_minus, readNumber_append ends read]
    rfl
  · rw [skipSpace_append start, List.cons_append, readValue_digit digit, ← List.cons_append, readNumber_append ends read]
    rfl

end Draft
end Handover
