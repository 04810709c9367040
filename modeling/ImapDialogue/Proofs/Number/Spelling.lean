import ImapDialogue.Proofs.Number.Numeral
import ImapDialogue.Proofs.Number.Rounding

/-!
What a numeral stands for. A grammar spells the exact value of a text: white space, then nothing,
digits of a base behind a letter, or a sign, digits with a point and an exponent, or a sign and
`Infinity`, and white space again. The reader gives that value rounded, however large or small it is,
and reads nothing else.
-/

namespace ImapDialogue.Numeral

/-! ## The grammar -/

inductive Magnitude where
  | finite (value : Rat)
  | infinite (negative : Bool)

def Magnitude.rounded : Magnitude → Number
  | .finite value => .ofRat value
  | .infinite negative => .infinite negative

inductive Digits (base : Nat) : List Char → Nat → Prop where
  | first {char : Char} {count : Nat} (means : digit char = some count) (small : count < base) :
      Digits base [char] count
  | further {chars : List Char} {value : Nat} {char : Char} {count : Nat}
      (front : Digits base chars value) (means : digit char = some count) (small : count < base) :
      Digits base (chars ++ [char]) (value * base + count)

inductive Sign : List Char → Bool → Prop where
  | none : Sign [] false
  | plus : Sign ['+'] false
  | minus : Sign ['-'] true

inductive Exponent : List Char → Int → Prop where
  | none : Exponent [] 0
  | some {mark : Char} {signed chars : List Char} {negative : Bool} {value : Nat}
      (marked : mark = 'e' ∨ mark = 'E') (sign : Sign signed negative)
      (digits : Digits 10 chars value) :
      Exponent (mark :: (signed ++ chars)) (if negative then -(value : Int) else value)

/-- A decimal numeral without a sign: digits with a point in front, among or behind them, or without
one, and an exponent. -/
inductive Decimal : List Char → Rat → Prop where
  | whole {chars behind : List Char} {value : Nat} {power : Int} (digits : Digits 10 chars value)
      (exponent : Exponent behind power) : Decimal (chars ++ behind) (value * 10 ^ power)
  | pointed {chars fraction behind : List Char} {value : Nat} {power : Int}
      (digits : Digits 10 (chars ++ fraction) value) (exponent : Exponent behind power) :
      Decimal (chars ++ '.' :: (fraction ++ behind)) (value * 10 ^ (power - fraction.length))

def bases : List (Char × Nat) :=
  [('x', 16), ('X', 16), ('o', 8), ('O', 8), ('b', 2), ('B', 2)]

inductive Spells : List Char → Magnitude → Prop where
  | blank : Spells [] (.finite 0)
  | based {letter : Char} {base : Nat} {chars : List Char} {value : Nat}
      (known : (letter, base) ∈ bases) (digits : Digits base chars value) :
      Spells ('0' :: letter :: chars) (.finite value)
  | decimal {signed chars : List Char} {negative : Bool} {value : Rat} (sign : Sign signed negative)
      (decimal : Decimal chars value) :
      Spells (signed ++ chars) (.finite (if negative then -value else value))
  | infinite {signed : List Char} {negative : Bool} (sign : Sign signed negative) :
      Spells (signed ++ "Infinity".toList) (.infinite negative)

def Means (text : String) (magnitude : Magnitude) : Prop :=
  ∃ front body back, text.toList = front ++ (body ++ back) ∧
    (∀ char ∈ front, isBlank char = true) ∧ (∀ char ∈ back, isBlank char = true) ∧
      Spells body magnitude

/-! ## Digits -/

theorem digitsValue_concat (base : Nat) (chars : List Char) (char : Char) :
    digitsValue base (chars ++ [char]) = (digitsValue base chars).bind fun value =>
      (digit char).bind fun count => if count < base then some (value * base + count) else none := by
  simp only [digitsValue, List.foldlM_append, List.foldlM_cons, List.foldlM_nil, bind_pure]
  rfl

theorem Digits.ne_nil {base : Nat} {chars : List Char} {value : Nat}
    (digits : Digits base chars value) : chars ≠ [] := by
  cases digits with
  | first => exact List.cons_ne_nil _ _
  | further => exact List.append_ne_nil_of_right_ne_nil _ (List.cons_ne_nil _ _)

theorem Digits.lt_pow {base : Nat} {chars : List Char} {value : Nat}
    (digits : Digits base chars value) : value < base ^ chars.length := by
  induction digits with
  | first means small => simpa using small
  | @further chars value char count front means small induction =>
      rw [List.length_append, List.length_singleton, pow_succ]
      calc
        value * base + count < value * base + base := Nat.add_lt_add_left small _
        _ = (value + 1) * base := (Nat.succ_mul _ _).symm
        _ ≤ base ^ chars.length * base := Nat.mul_le_mul_right _ induction

theorem Digits.value {base : Nat} {chars : List Char} {value : Nat}
    (digits : Digits base chars value) : digitsValue base chars = some value := by
  induction digits with
  | @first char count means small =>
      have one := digitsValue_concat base [] char
      rw [List.nil_append] at one
      rw [one, means]
      simp [digitsValue, small]
  | further front means small induction =>
      rw [digitsValue_concat, induction, means]
      simp [small]

theorem digitsValue_iff {base : Nat} {chars : List Char} (filled : chars ≠ []) (value : Nat) :
    digitsValue base chars = some value ↔ Digits base chars value := by
  refine ⟨fun read => ?_, Digits.value⟩
  -- The last digit is added to the value of those in front of it: induction from the back.
  induction chars using List.reverseRecOn generalizing value with
  | nil => exact absurd rfl filled
  | append_singleton chars char induction =>
      rw [digitsValue_concat] at read
      obtain ⟨front, readFront, read⟩ := Option.bind_eq_some_iff.mp read
      obtain ⟨count, means, read⟩ := Option.bind_eq_some_iff.mp read
      rw [Option.ite_none_right_eq_some] at read
      obtain ⟨small, same⟩ := read
      cases same
      by_cases single : chars = []
      · subst single
        cases readFront
        rw [Nat.zero_mul, Nat.zero_add]
        exact .first means small
      · exact .further (induction single front readFront) means small

theorem Digits.mem {base : Nat} {chars : List Char} {value : Nat} (digits : Digits base chars value)
    {char : Char} (member : char ∈ chars) : ∃ count, digit char = some count ∧ count < base := by
  induction digits with
  | first means small =>
      rw [List.mem_singleton.mp member]
      exact ⟨_, means, small⟩
  | further front means small induction =>
      rcases List.mem_append.mp member with earlier | last
      · exact induction earlier
      · rw [List.mem_singleton.mp last]
        exact ⟨_, means, small⟩

theorem isDigit_iff (char : Char) :
    char.isDigit = true ↔ ∃ count, digit char = some count ∧ count < 10 := by
  have codes : char.isDigit = true ↔ 0x30 ≤ char.toNat ∧ char.toNat ≤ 0x39 := by
    simp only [Char.isDigit, Bool.and_eq_true, decide_eq_true_eq, ge_iff_le, UInt32.le_iff_toNat_le]
    rfl
  rw [codes, digit]
  split_ifs
  all_goals simp only [Bool.and_eq_true, decide_eq_true_eq, Option.some.injEq, exists_eq_left',
    false_and, exists_false, iff_false] at *
  all_goals omega

theorem Digits.isDigit {chars : List Char} {value : Nat} (digits : Digits 10 chars value) :
    ∀ char ∈ chars, char.isDigit = true :=
  fun _ member => (isDigit_iff _).mpr (digits.mem member)

/-! ## Signs and exponents -/

def Bare (chars : List Char) : Prop := ∀ rest, chars ≠ '+' :: rest ∧ chars ≠ '-' :: rest

theorem bare_of_digit {char : Char} (digit : char.isDigit = true) (rest : List Char) :
    Bare (char :: rest) := by
  intro others
  constructor
  · intro same
    rw [(List.cons.inj same).1] at digit
    exact absurd digit (by decide)
  · intro same
    rw [(List.cons.inj same).1] at digit
    exact absurd digit (by decide)

theorem Digits.bare {chars : List Char} {value : Nat} (digits : Digits 10 chars value)
    (rest : List Char) : Bare (chars ++ rest) := by
  obtain ⟨char, others, rfl⟩ := List.exists_cons_of_ne_nil digits.ne_nil
  exact bare_of_digit (digits.isDigit char List.mem_cons_self) _

theorem sign_append {signed rest : List Char} {negative : Bool} (sign : Sign signed negative)
    (bare : Bare rest) : Numeral.sign (signed ++ rest) = (negative, rest) := by
  cases sign with
  | none =>
      rw [List.nil_append]
      unfold Numeral.sign
      split
      · next others => exact absurd rfl (bare others).2
      · next others => exact absurd rfl (bare others).1
      · rfl
  | plus => rfl
  | minus => rfl

theorem sign_spells (chars : List Char) :
    ∃ signed, Sign signed (Numeral.sign chars).1 ∧ chars = signed ++ (Numeral.sign chars).2 := by
  unfold Numeral.sign
  split
  · exact ⟨['-'], .minus, rfl⟩
  · exact ⟨['+'], .plus, rfl⟩
  · exact ⟨[], .none, rfl⟩

theorem exponent_iff (chars : List Char) (power : Int) :
    exponent chars = some power ↔ Exponent chars power := by
  constructor
  · intro read
    cases chars with
    | nil =>
        cases read
        exact .none
    | cons mark rest =>
        obtain ⟨signed, sign, same⟩ := sign_spells rest
        rcases taken : Numeral.sign rest with ⟨negative, chars⟩
        rw [taken] at sign same
        simp only [exponent, taken] at read
        split at read
        · next marked =>
            split at read
            · cases read
            · next filled =>
                obtain ⟨whole, counted, rfl⟩ := Option.map_eq_some_iff.mp read
                obtain ⟨value, digits, cast⟩ := Option.bind_eq_some_iff.mp counted
                cases cast
                rw [List.isEmpty_iff] at filled
                rw [same]
                exact .some (by simpa using marked) sign ((digitsValue_iff filled _).mp digits)
        · cases read
  · intro spelled
    cases spelled with
    | none => rfl
    | @some mark signed chars negative value marked sign digits =>
        have bare := digits.bare []
        rw [List.append_nil] at bare
        have filled : chars.isEmpty = false := by simpa using digits.ne_nil
        have marks : (mark == 'e' || mark == 'E') = true := by simpa using marked
        simp only [exponent, marks, sign_append sign bare, filled, digits.value, if_true,
          Bool.false_eq_true, if_false]
        rfl

theorem Exponent.stops {chars : List Char} {power : Int} (exponent : Exponent chars power) :
    ∀ char rest, chars = char :: rest → char.isDigit = false ∧ char ≠ '.' := by
  intro char rest same
  cases exponent with
  | none => cases same
  | some marked sign digits =>
      rw [← (List.cons.inj same).1]
      rcases marked with rfl | rfl <;> decide

/-! ## Rounding in reach -/

theorem pow_two_le_pow_ten : (2 : Rat) ^ (1200 : Int) ≤ 10 ^ (400 : Int) :=
  calc
    (2 : Rat) ^ (1200 : Int) = 2 ^ (3 * 400 : Int) := rfl
    _ = (2 ^ (3 : Int)) ^ (400 : Int) := zpow_mul _ _ _
    _ ≤ 10 ^ (400 : Int) := zpow_le_zpow_left₀ (by norm_num) (by norm_num) (by norm_num)

/-- Powers that are out of reach are not formed, and what stands for them is what they would be
rounded to. -/
theorem rounded_eq {digits count : Nat} (bounded : digits < 10 ^ count) (negative : Bool)
    (exponent : Int) :
    rounded negative digits count exponent =
      .ofRat (if negative then -(digits * 10 ^ exponent : Rat) else digits * 10 ^ exponent) := by
  by_cases zero : digits = 0
  · subst zero
    rw [rounded, if_pos rfl, Nat.cast_zero, zero_mul, neg_zero, ite_self]
    rfl
  have positive : (0 : Rat) < digits * 10 ^ exponent := by
    have counted : (0 : Rat) < digits := by exact_mod_cast Nat.pos_of_ne_zero zero
    positivity
  have size : |if negative then -(digits * 10 ^ exponent : Rat) else digits * 10 ^ exponent| =
      digits * 10 ^ exponent := by
    cases negative
    · exact abs_of_pos positive
    · exact (abs_neg _).trans (abs_of_pos positive)
  rw [rounded, if_neg zero]
  by_cases high : 400 + (count : Int) < exponent
  · have reaches : Number.overflow ≤ digits * 10 ^ exponent := by
      have least : (1 : Rat) ≤ digits := by exact_mod_cast Nat.pos_of_ne_zero zero
      calc
        Number.overflow ≤ 2 ^ (1200 : Int) := by
          rw [Number.overflow_eq]
          exact zpow_le_zpow_right₀ one_le_two (by norm_num)
        _ ≤ 10 ^ (400 : Int) := pow_two_le_pow_ten
        _ ≤ 10 ^ exponent := zpow_le_zpow_right₀ (by norm_num) (by omega)
        _ ≤ digits * 10 ^ exponent := le_mul_of_one_le_left (by positivity) least
    rw [if_pos high, Number.ofRat_overflow (by rw [size]; exact reaches)]
    cases negative
    · simp [positive.le]
    · simp [positive]
  rw [if_neg high]
  by_cases low : exponent + count < -400
  · have small : (digits : Rat) * 10 ^ exponent < 2 ^ (-1075 : Int) := by
      have below : (digits : Rat) < 10 ^ (count : Int) := by
        rw [zpow_natCast]
        exact_mod_cast bounded
      calc
        (digits : Rat) * 10 ^ exponent < 10 ^ (count : Int) * 10 ^ exponent :=
          mul_lt_mul_of_pos_right below (by positivity)
        _ = 10 ^ (exponent + count) := by rw [← zpow_add₀ (by norm_num), add_comm]
        _ ≤ 10 ^ (-400 : Int) := zpow_le_zpow_right₀ (by norm_num) (by omega)
        _ ≤ 2 ^ (-1200 : Int) := by
          rw [zpow_neg, zpow_neg]
          exact inv_anti₀ (by positivity) pow_two_le_pow_ten
        _ ≤ 2 ^ (-1075 : Int) := zpow_le_zpow_right₀ one_le_two (by norm_num)
    rw [if_pos low, Number.ofRat_underflow (by rw [size]; exact small)]
  rw [if_neg low]
  have whole : mkRat (digits * Nat.pow 10 exponent.toNat : Nat) (Nat.pow 10 (-exponent).toNat) =
      digits * 10 ^ exponent := by
    have parts := Number.pow_parts 10 exponent
    simp only [Rat.mkRat_eq_div, Nat.pow_eq]
    push_cast at parts ⊢
    rw [← parts, mul_div_assoc]
  simp only [whole]

/-! ## Decimal numerals -/

def fraction : List Char → List Char × List Char
  | '.' :: rest => (rest.takeWhile Char.isDigit, rest.dropWhile Char.isDigit)
  | rest => ([], rest)

theorem fraction_cases (chars : List Char) :
    (∃ rest, chars = '.' :: rest ∧
        fraction chars = (rest.takeWhile Char.isDigit, rest.dropWhile Char.isDigit)) ∨
      fraction chars = ([], chars) := by
  unfold fraction
  split
  · next rest => exact .inl ⟨rest, rfl, rfl⟩
  · exact .inr rfl

/-- The number that some digits make, the last of them behind a point, with an exponent. -/
def composed (negative : Bool) (digits : List Char) (places : Nat) (tail : List Char) :
    Option Number :=
  if digits.isEmpty then none
  else do
    let value ← digitsValue 10 digits
    let power ← exponent tail
    return rounded negative value digits.length (power - places)

theorem decimal_eq (chars : List Char) :
    decimal chars =
      let (negative, unsigned) := Numeral.sign chars
      if unsigned == "Infinity".toList then some (.infinite negative)
      else
        let behind := fraction (unsigned.dropWhile Char.isDigit)
        composed negative (unsigned.takeWhile Char.isDigit ++ behind.1) behind.1.length behind.2 := rfl

theorem composed_iff (negative : Bool) (digits : List Char) (places : Nat) (tail : List Char)
    (number : Number) :
    composed negative digits places tail = some number ↔
      ∃ value power, Digits 10 digits value ∧ Exponent tail power ∧
        number = .ofRat (if negative then -(value * 10 ^ (power - places) : Rat)
          else value * 10 ^ (power - places)) := by
  unfold composed
  constructor
  · intro read
    split at read
    · cases read
    · next filled =>
        rw [List.isEmpty_iff] at filled
        obtain ⟨value, counted, read⟩ := Option.bind_eq_some_iff.mp read
        obtain ⟨power, raised, read⟩ := Option.bind_eq_some_iff.mp read
        cases read
        have spelled := (digitsValue_iff filled value).mp counted
        exact ⟨value, power, spelled, (exponent_iff tail power).mp raised,
          rounded_eq spelled.lt_pow negative _⟩
  · rintro ⟨value, power, spelled, raised, rfl⟩
    have filled : ¬digits.isEmpty = true := by
      rw [List.isEmpty_iff]
      exact spelled.ne_nil
    rw [if_neg filled, spelled.value, (exponent_iff tail power).mpr raised]
    exact congrArg some (rounded_eq spelled.lt_pow negative _)

theorem run_digits {chars behind : List Char} (digits : ∀ char ∈ chars, char.isDigit = true)
    (stops : ∀ char rest, behind = char :: rest → char.isDigit = false) :
    (chars ++ behind).takeWhile Char.isDigit = chars ∧
      (chars ++ behind).dropWhile Char.isDigit = behind := by
  rw [List.takeWhile_append_of_pos digits, List.dropWhile_append_of_pos digits]
  cases behind with
  | nil => exact ⟨List.append_nil _, rfl⟩
  | cons char rest =>
      have other : ¬char.isDigit = true := by rw [stops char rest rfl]; exact Bool.false_ne_true
      rw [List.takeWhile_cons_of_neg other, List.dropWhile_cons_of_neg other]
      exact ⟨List.append_nil _, rfl⟩

theorem Decimal.bare {chars : List Char} {value : Rat} (decimal : Decimal chars value) :
    Bare chars ∧ chars ≠ "Infinity".toList := by
  have digital : ∀ {char : Char}, char.isDigit = true → ∀ rest,
      Bare (char :: rest) ∧ char :: rest ≠ "Infinity".toList := by
    intro char digit rest
    refine ⟨bare_of_digit digit rest, fun same => ?_⟩
    rw [(List.cons.inj same).1] at digit
    exact absurd digit (by decide)
  cases decimal with
  | whole digits exponent =>
      obtain ⟨char, others, rfl⟩ := List.exists_cons_of_ne_nil digits.ne_nil
      exact digital (digits.isDigit char List.mem_cons_self) _
  | @pointed chars fraction behind value power digits exponent =>
      cases chars with
      | nil => exact ⟨fun rest => ⟨nofun, nofun⟩, nofun⟩
      | cons char others => exact digital (digits.isDigit char List.mem_cons_self) _

/-- An unsigned decimal numeral is what stands in front of a point, the digits behind it and an
exponent. -/
theorem decimal_unsigned_iff (unsigned : List Char) (value : Rat) :
    Decimal unsigned value ↔
      ∃ count power,
        let behind := fraction (unsigned.dropWhile Char.isDigit)
        Digits 10 (unsigned.takeWhile Char.isDigit ++ behind.1) count ∧ Exponent behind.2 power ∧
          value = count * 10 ^ (power - behind.1.length) := by
  constructor
  · intro spelled
    cases spelled with
    | @whole chars behind count power digits exponent =>
        obtain ⟨taken, dropped⟩ := run_digits digits.isDigit
          fun char rest same => (exponent.stops char rest same).1
        refine ⟨count, power, ?_⟩
        rw [taken, dropped]
        rcases fraction_cases behind with ⟨rest, rfl, _⟩ | plain
        · -- What begins with a point is no exponent.
          exact absurd rfl (exponent.stops _ rest rfl).2
        · rw [plain]
          exact ⟨by rwa [List.append_nil], exponent, by simp⟩
    | @pointed chars places behind count power digits exponent =>
        have numeric := digits.isDigit
        obtain ⟨taken, dropped⟩ := @run_digits chars ('.' :: (places ++ behind))
          (fun char member => numeric char (List.mem_append_left _ member))
          (by rintro char rest same; rw [← (List.cons.inj same).1]; rfl)
        obtain ⟨taken', dropped'⟩ := @run_digits places behind
          (fun char member => numeric char (List.mem_append_right chars member))
          fun char rest same => (exponent.stops char rest same).1
        refine ⟨count, power, ?_⟩
        rw [taken, dropped, fraction, taken', dropped']
        exact ⟨digits, exponent, rfl⟩
  · rintro ⟨count, power, digits, exponent, rfl⟩
    have parts := @List.takeWhile_append_dropWhile _ Char.isDigit unsigned
    rcases fraction_cases (unsigned.dropWhile Char.isDigit) with ⟨rest, pointed, split⟩ | plain
    · have parts' := @List.takeWhile_append_dropWhile _ Char.isDigit rest
      rw [split] at digits exponent ⊢
      rw [pointed, ← parts'] at parts
      have spelled := Decimal.pointed digits exponent
      rwa [parts] at spelled
    · rw [plain, List.append_nil] at digits
      rw [plain] at exponent ⊢
      have spelled := Decimal.whole digits exponent
      rw [parts] at spelled
      simpa using spelled

theorem decimal_iff (chars : List Char) (number : Number) :
    decimal chars = some number ↔
      ∃ signed unsigned negative, Sign signed negative ∧ chars = signed ++ unsigned ∧
        (unsigned = "Infinity".toList ∧ number = .infinite negative ∨
          ∃ value, Decimal unsigned value ∧ number = .ofRat (if negative then -value else value)) := by
  rw [decimal_eq]
  constructor
  · intro read
    obtain ⟨signed, sign, same⟩ := sign_spells chars
    refine ⟨signed, _, _, sign, same, ?_⟩
    dsimp only at read
    split at read
    · next infinite =>
        cases read
        exact .inl ⟨by simpa using infinite, rfl⟩
    · obtain ⟨count, power, digits, exponent, rfl⟩ := (composed_iff _ _ _ _ _).mp read
      exact .inr ⟨_, (decimal_unsigned_iff _ _).mpr ⟨count, power, digits, exponent, rfl⟩, rfl⟩
  · rintro ⟨signed, unsigned, negative, sign, rfl, ⟨rfl, rfl⟩ | ⟨value, spelled, rfl⟩⟩
    · have bare : Bare "Infinity".toList := fun rest => ⟨nofun, nofun⟩
      simp only [sign_append sign bare, beq_self_eq_true, if_true]
    · obtain ⟨bare, finite⟩ := spelled.bare
      have finite' : ¬(unsigned == "Infinity".toList) = true := by simpa using finite
      obtain ⟨count, power, digits, exponent, rfl⟩ := (decimal_unsigned_iff _ _).mp spelled
      rw [sign_append sign bare]
      dsimp only
      rw [if_neg finite']
      exact (composed_iff _ _ _ _ _).mpr ⟨count, power, digits, exponent, rfl⟩

/-! ## White space -/

theorem isBlank_of_digit {char : Char} {count : Nat} (means : digit char = some count) :
    isBlank char = false := by
  simp only [isBlank, Bool.or_eq_false_iff, Bool.and_eq_false_iff, decide_eq_false_iff_not,
    beq_eq_false_iff_ne]
  unfold digit at means
  dsimp only at means
  split_ifs at means with within within within
  all_goals simp only [Bool.and_eq_true, decide_eq_true_eq] at within
  all_goals omega

def Visible (chars : List Char) : Prop := ∀ char ∈ chars, isBlank char = false

instance (chars : List Char) : Decidable (Visible chars) := List.decidableBAll _ chars

theorem Visible.append {front back : List Char} (visible : Visible front) (visible' : Visible back) :
    Visible (front ++ back) := by
  intro char member
  rcases List.mem_append.mp member with earlier | later
  · exact visible char earlier
  · exact visible' char later

theorem Visible.cons {char : Char} {chars : List Char} (visible : isBlank char = false)
    (visible' : Visible chars) : Visible (char :: chars) :=
  List.forall_mem_cons.mpr ⟨visible, visible'⟩

theorem Digits.visible {base : Nat} {chars : List Char} {value : Nat}
    (digits : Digits base chars value) : Visible chars := by
  intro char member
  obtain ⟨count, means, _⟩ := digits.mem member
  exact isBlank_of_digit means

theorem Sign.visible {chars : List Char} {negative : Bool} (sign : Sign chars negative) :
    Visible chars := by
  cases sign with
  | none => exact fun _ member => absurd member List.not_mem_nil
  | plus => decide
  | minus => decide

theorem Exponent.visible {chars : List Char} {power : Int} (exponent : Exponent chars power) :
    Visible chars := by
  cases exponent with
  | none => exact fun _ member => absurd member List.not_mem_nil
  | @some mark signed chars negative value marked sign digits =>
      have seen : isBlank mark = false := by
        rcases marked with rfl | rfl <;> decide
      exact .cons seen (sign.visible.append digits.visible)

theorem Decimal.visible {chars : List Char} {value : Rat} (decimal : Decimal chars value) :
    Visible chars := by
  cases decimal with
  | whole digits exponent => exact digits.visible.append exponent.visible
  | @pointed chars fraction behind value power digits exponent =>
      have point : isBlank '.' = false := by decide
      have visible := digits.visible
      have whole : Visible chars := fun char member => visible char (List.mem_append_left _ member)
      have places : Visible fraction :=
        fun char member => visible char (List.mem_append_right _ member)
      exact whole.append (.cons point (places.append exponent.visible))

theorem Spells.visible {chars : List Char} {magnitude : Magnitude}
    (spelled : Spells chars magnitude) : Visible chars := by
  cases spelled with
  | blank => exact fun _ member => absurd member List.not_mem_nil
  | @based letter base chars value known digits =>
      have zero : isBlank '0' = false := by decide
      have letters : ∀ pair ∈ bases, isBlank pair.1 = false := by decide
      exact .cons zero (.cons (letters (letter, base) known) digits.visible)
  | decimal sign decimal => exact sign.visible.append decimal.visible
  | infinite sign => exact sign.visible.append (by decide)

theorem dropWhile_visible {chars : List Char} (visible : Visible chars) :
    chars.dropWhile isBlank = chars := by
  cases chars with
  | nil => rfl
  | cons char rest =>
      rw [List.dropWhile_cons_of_neg]
      rw [visible char List.mem_cons_self]
      exact Bool.false_ne_true

theorem trim_append {front body back : List Char} (blank : ∀ char ∈ front, isBlank char = true)
    (blank' : ∀ char ∈ back, isBlank char = true) (visible : Visible body) :
    trim (front ++ (body ++ back)) = body := by
  have reversed : ∀ char ∈ back.reverse, isBlank char = true :=
    fun char member => blank' char (List.mem_reverse.mp member)
  have visible' : Visible body.reverse :=
    fun char member => visible char (List.mem_reverse.mp member)
  rw [trim, List.dropWhile_append_of_pos blank]
  cases body with
  | nil =>
      have nothing : back.dropWhile isBlank = [] := List.dropWhile_eq_nil_iff.mpr blank'
      rw [List.nil_append, nothing]
      rfl
  | cons char rest =>
      have seen : ¬isBlank char = true := by
        rw [visible char List.mem_cons_self]
        exact Bool.false_ne_true
      rw [List.cons_append, List.dropWhile_cons_of_neg seen, ← List.cons_append,
        List.reverse_append, List.dropWhile_append_of_pos reversed, dropWhile_visible visible',
        List.reverse_reverse]

theorem trim_parts (chars : List Char) :
    ∃ front back, chars = front ++ (trim chars ++ back) ∧
      (∀ char ∈ front, isBlank char = true) ∧ ∀ char ∈ back, isBlank char = true := by
  refine ⟨chars.takeWhile isBlank,
    ((chars.dropWhile isBlank).reverse.takeWhile isBlank).reverse, ?_,
    fun _ member => List.mem_takeWhile_imp member,
    fun _ member => List.mem_takeWhile_imp (List.mem_reverse.mp member)⟩
  rw [trim, ← List.reverse_append, List.takeWhile_append_dropWhile, List.reverse_reverse,
    List.takeWhile_append_dropWhile]

/-! ## Whole numerals -/

def bodyNumber (chars : List Char) : Option Number :=
  match chars with
  | [] => some (.finite 0)
  | '0' :: mark :: rest =>
      if mark == 'x' || mark == 'X' then based 16 rest
      else if mark == 'o' || mark == 'O' then based 8 rest
      else if mark == 'b' || mark == 'B' then based 2 rest
      else decimal ('0' :: mark :: rest)
  | chars => decimal chars

theorem read_eq (text : String) : read text = bodyNumber (trim text.toList) := rfl

theorem based_iff (base : Nat) (chars : List Char) (number : Number) :
    based base chars = some number ↔ ∃ value, Digits base chars value ∧ number = .ofNat value := by
  unfold based
  constructor
  · intro read
    split at read
    · cases read
    · next filled =>
        rw [List.isEmpty_iff] at filled
        obtain ⟨value, counted, rfl⟩ := Option.map_eq_some_iff.mp read
        exact ⟨value, (digitsValue_iff filled value).mp counted, rfl⟩
  · rintro ⟨value, digits, rfl⟩
    have filled : ¬chars.isEmpty = true := by
      rw [List.isEmpty_iff]
      exact digits.ne_nil
    rw [if_neg filled, digits.value, Option.map_some]

theorem bodyNumber_based {letter : Char} {base : Nat} (known : (letter, base) ∈ bases)
    (rest : List Char) : bodyNumber ('0' :: letter :: rest) = based base rest := by
  simp only [bases, List.mem_cons, Prod.mk.injEq, List.not_mem_nil, or_false] at known
  rcases known with ⟨rfl, rfl⟩ | ⟨rfl, rfl⟩ | ⟨rfl, rfl⟩ | ⟨rfl, rfl⟩ | ⟨rfl, rfl⟩ | ⟨rfl, rfl⟩ <;> rfl

theorem decimal_based {letter : Char} {base : Nat} (known : (letter, base) ∈ bases)
    (rest : List Char) : decimal ('0' :: letter :: rest) = none := by
  simp only [bases, List.mem_cons, Prod.mk.injEq, List.not_mem_nil, or_false] at known
  rcases known with ⟨rfl, rfl⟩ | ⟨rfl, rfl⟩ | ⟨rfl, rfl⟩ | ⟨rfl, rfl⟩ | ⟨rfl, rfl⟩ | ⟨rfl, rfl⟩ <;> rfl

/-- Without the letter of a base there is nothing left but a decimal numeral. -/
theorem bodyNumber_cases (chars : List Char) :
    chars = [] ∨
      (∃ letter base rest, (letter, base) ∈ bases ∧ chars = '0' :: letter :: rest) ∨
      bodyNumber chars = decimal chars := by
  unfold bodyNumber
  split
  · exact .inl rfl
  · next mark rest =>
      right
      by_cases known : ∃ base, (mark, base) ∈ bases
      · obtain ⟨base, known⟩ := known
        exact .inl ⟨mark, base, rest, known, rfl⟩
      · have other : ∀ letter base, (letter, base) ∈ bases → (mark == letter) = false :=
          fun letter base member =>
            beq_eq_false_iff_ne.mpr fun same => known ⟨base, same ▸ member⟩
        right
        simp only [other 'x' 16 (by decide), other 'X' 16 (by decide), other 'o' 8 (by decide),
          other 'O' 8 (by decide), other 'b' 2 (by decide), other 'B' 2 (by decide), Bool.or_self,
          Bool.false_eq_true, if_false]
  · exact .inr (.inr rfl)

theorem bodyNumber_iff (chars : List Char) (number : Number) :
    bodyNumber chars = some number ↔
      ∃ magnitude, Spells chars magnitude ∧ magnitude.rounded = number := by
  constructor
  · intro read
    rcases bodyNumber_cases chars with rfl | ⟨letter, base, rest, known, rfl⟩ | plain
    · cases read
      exact ⟨_, .blank, rfl⟩
    · rw [bodyNumber_based known, based_iff] at read
      obtain ⟨value, digits, rfl⟩ := read
      exact ⟨_, .based known digits, Number.ofRat_natCast value⟩
    · rw [plain, decimal_iff] at read
      obtain ⟨signed, unsigned, negative, sign, rfl, ⟨rfl, rfl⟩ | ⟨value, spelled, rfl⟩⟩ := read
      · exact ⟨_, .infinite sign, rfl⟩
      · exact ⟨_, .decimal sign spelled, rfl⟩
  · -- No decimal numeral has the letter of a base behind a zero in front.
    have plain : decimal chars = some number → bodyNumber chars = some number := by
      intro read
      rcases bodyNumber_cases chars with rfl | ⟨letter, base, rest, known, rfl⟩ | plain
      · cases read
      · rw [decimal_based known] at read
        cases read
      · rw [plain, read]
    rintro ⟨magnitude, spelled, rfl⟩
    cases spelled with
    | blank => rfl
    | based known digits =>
        rw [bodyNumber_based known, based_iff]
        exact ⟨_, digits, Number.ofRat_natCast _⟩
    | decimal sign decimal =>
        exact plain ((decimal_iff _ _).mpr ⟨_, _, _, sign, rfl, .inr ⟨_, decimal, rfl⟩⟩)
    | infinite sign =>
        exact plain ((decimal_iff _ _).mpr ⟨_, _, _, sign, rfl, .inl ⟨rfl, rfl⟩⟩)

/-- A text is read as the number nearest to what it stands for, and not at all if it stands for
nothing. -/
theorem read_iff (text : String) (number : Number) :
    read text = some number ↔ ∃ magnitude, Means text magnitude ∧ magnitude.rounded = number := by
  rw [read_eq, bodyNumber_iff]
  constructor
  · rintro ⟨magnitude, spelled, rounded⟩
    obtain ⟨front, back, parts, blank, blank'⟩ := trim_parts text.toList
    exact ⟨magnitude, ⟨front, _, back, parts, blank, blank', spelled⟩, rounded⟩
  · rintro ⟨magnitude, ⟨front, body, back, parts, blank, blank', spelled⟩, rounded⟩
    rw [parts, trim_append blank blank' spelled.visible]
    exact ⟨magnitude, spelled, rounded⟩

end ImapDialogue.Numeral
