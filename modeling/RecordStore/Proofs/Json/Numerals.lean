import RecordStore.Json.Parser
import RecordStore.Json.Text
import RecordStore.Proofs.Decimal.Shortest

/-!
# The texts of numbers

The text of a number consists of a sign, digits, a fraction and an exponent, some of which may be
missing. In front of anything that can follow a value, the functions that read JSON text find these
parts again (`Numeral.parts_unique`). An integer has neither fraction nor exponent, a float one of
the two, and the parts of a float stand for its shortest digits, so the text determines the number
(`Number.text_unique`).
-/

namespace RecordStore

/-- A number that has a text of its own: an integer, or a finite float. -/
def Number.isFinite : Number → Bool
  | .int _ => true
  | .float x => x.isFinite

namespace Json

/-- What can follow a value inside a JSON text: a comma, a closing bracket, or the end. -/
def EndsValue (rest : List Char) : Prop :=
  ∀ c ∈ rest.head?, c = ',' ∨ c = ']' ∨ c = '\x7d'

/-! ### Digits -/

theorem splitDigits_append {digits rest : List Char} (hdigits : ∀ c ∈ digits, c.isDigit = true)
    (hrest : ∀ c ∈ rest.head?, c.isDigit = false) :
    splitDigits (digits ++ rest) = (digits, rest) := by
  rw [splitDigits, List.takeWhile_append_of_pos hdigits, List.dropWhile_append_of_pos hdigits]
  cases rest with
  | nil => simp
  | cons c rest =>
    have hc : ¬ c.isDigit = true := by simp [hrest c rfl]
    rw [List.takeWhile_cons_of_neg hc, List.dropWhile_cons_of_neg hc, List.append_nil]

theorem digitsValue_eq (digits : List Char) :
    digitsValue digits = Nat.ofDigitChars 10 digits 0 := by
  simp only [digitsValue, Nat.ofDigitChars, Nat.mul_comm]

theorem digitsValue_append (front back : List Char) :
    digitsValue (front ++ back) = 10 ^ back.length * digitsValue front + digitsValue back := by
  simp only [digitsValue_eq, Nat.ofDigitChars_append]
  exact Nat.ofDigitChars_eq_ofDigitChars_zero

theorem digitsValue_toDigits (n : Nat) : digitsValue (Nat.toDigits 10 n) = n := by
  rw [digitsValue_eq, Nat.ofDigitChars_ten_toDigits]

theorem digitsValue_zeros (n : Nat) : digitsValue (List.replicate n '0') = 0 := by
  rw [digitsValue_eq, Nat.ofDigitChars_replicate_zero, Nat.mul_zero]

theorem isDigit_toDigits (n : Nat) : ∀ c ∈ Nat.toDigits 10 n, c.isDigit = true :=
  fun _ hc => Nat.isDigit_of_mem_toDigits (by decide) (by decide) hc

theorem isDigit_zeros (n : Nat) : ∀ c ∈ List.replicate n '0', c.isDigit = true :=
  fun _ hc => List.eq_of_mem_replicate hc ▸ rfl

/-- The text of an integer is its sign and the digits of its magnitude. -/
theorem toList_toString (i : Int) :
    (toString i).toList = (if i < 0 then ['-'] else []) ++ Nat.toDigits 10 i.natAbs := by
  rw [Int.toString_eq_repr, Int.repr_eq_if]
  split
  next hnonneg =>
    rw [if_neg (not_lt.2 hnonneg), Nat.toList_repr, show i.toNat = i.natAbs by omega]
    rfl
  next hneg =>
    rw [if_pos (not_le.1 hneg), String.toList_append, Nat.toList_repr,
      show (-i).toNat = i.natAbs by omega]
    rfl

/-! ### Parts -/

/-- The parts of the text of a number. -/
structure Numeral where
  isNegative : Bool
  whole : List Char
  fraction : Option (List Char)
  exponent : Option Int

namespace Numeral

def signText (isNegative : Bool) : List Char := if isNegative then ['-'] else []

/-- A fraction with its point. -/
def fractionText : Option (List Char) → List Char
  | none => []
  | some digits => '.' :: digits

/-- An exponent with its mark. -/
def exponentText : Option Int → List Char
  | none => []
  | some e => 'e' :: (toString e).toList

def text (m : Numeral) : List Char :=
  signText m.isNegative ++ (m.whole ++ (fractionText m.fraction ++ exponentText m.exponent))

/-- There are digits where the grammar wants some, and nothing but digits. -/
structure IsWellFormed (m : Numeral) : Prop where
  whole_ne_nil : m.whole ≠ []
  whole_digits : ∀ c ∈ m.whole, c.isDigit = true
  fraction_ne_nil : m.fraction ≠ some []
  fraction_digits : ∀ c ∈ m.fraction.getD [], c.isDigit = true

/-- The number that the parts without the sign stand for. -/
def magnitude (m : Numeral) : ℚ :=
  digitsValue (m.whole ++ m.fraction.getD []) *
    10 ^ (m.exponent.getD 0 - (m.fraction.getD []).length)

/-- The text of a number begins with a sign or a digit. -/
theorem IsWellFormed.head_text {m : Numeral} (hm : m.IsWellFormed) :
    ∃ c tail, m.text = c :: tail ∧ (c = '-' ∨ c.isDigit = true) := by
  obtain ⟨c, tail, hcons⟩ := List.exists_cons_of_ne_nil hm.whole_ne_nil
  have hc := hm.whole_digits c (hcons ▸ List.mem_cons_self)
  rw [text, hcons]
  cases m.isNegative with
  | false => exact ⟨c, _, rfl, .inr hc⟩
  | true => exact ⟨'-', _, rfl, .inl rfl⟩

/-- An exponent is read as it is written. -/
theorem exponent?_append (e : Option Int) {rest : List Char} (hrest : EndsValue rest) :
    exponent? (exponentText e ++ rest) = some (e, rest) := by
  have hdigit : ∀ c ∈ rest.head?, c.isDigit = false := by
    intro c hc
    rcases hrest c hc with rfl | rfl | rfl <;> rfl
  cases e with
  | none =>
    cases rest with
    | nil => rfl
    | cons c rest => rcases hrest c rfl with rfl | rfl | rfl <;> rfl
  | some e =>
    have hsplit := splitDigits_append (isDigit_toDigits e.natAbs) hdigit
    obtain ⟨c, digits, hcons⟩ := List.exists_cons_of_ne_nil (@Nat.toDigits_ne_nil e.natAbs 10)
    have hc : c.isDigit = true := isDigit_toDigits e.natAbs c (hcons ▸ List.mem_cons_self)
    have hvalue := digitsValue_toDigits e.natAbs
    rw [exponentText, toList_toString]
    rw [hcons] at hsplit hvalue ⊢
    rw [List.cons_append] at hsplit
    split
    next hneg =>
      simp only [exponent?, List.cons_append, List.nil_append, true_or, if_true, hsplit, hvalue]
      rw [show -(e.natAbs : Int) = e by omega]
    next hnonneg =>
      -- Without a sign the digits follow the mark at once, and none of them is taken for a sign.
      have hplus : c ≠ '+' := fun h => by cases h ▸ hc
      have hminus : c ≠ '-' := fun h => by cases h ▸ hc
      simp [exponent?, hplus, hminus, hsplit, hvalue, abs_of_nonneg (not_lt.1 hnonneg)]

/-- A fraction is read as it is written. -/
theorem fraction?_append {fraction : Option (List Char)} {rest : List Char}
    (hne : fraction ≠ some []) (hdigits : ∀ c ∈ fraction.getD [], c.isDigit = true)
    (hrest : ∀ c ∈ rest.head?, c.isDigit = false ∧ c ≠ '.') :
    fraction? (fractionText fraction ++ rest) = some (fraction, rest) := by
  cases fraction with
  | none =>
    rw [fractionText, List.nil_append, fraction?]
    rintro tail rfl
    exact (hrest '.' rfl).2 rfl
  | some digits =>
    have hsplit := splitDigits_append hdigits fun c hc => (hrest c hc).1
    obtain ⟨c, tail, rfl⟩ := List.exists_cons_of_ne_nil fun h => hne (congrArg some h)
    rw [Option.getD_some] at hsplit
    rw [fractionText, List.cons_append, fraction?, hsplit]

/-- The sign is found in front of a digit. -/
theorem signText_append_inj {b b' : Bool} {cs cs' : List Char}
    (h : signText b ++ cs = signText b' ++ cs') (hcs : ∀ c ∈ cs.head?, c.isDigit = true)
    (hcs' : ∀ c ∈ cs'.head?, c.isDigit = true) : b = b' ∧ cs = cs' := by
  cases b with
  | false =>
    cases b' with
    | false => exact ⟨rfl, h⟩
    | true =>
      -- The sign of the other text would be the first digit of this one.
      subst h
      cases hcs '-' rfl
  | true =>
    cases b' with
    | false =>
      subst h
      cases hcs' '-' rfl
    | true => exact ⟨rfl, List.tail_eq_of_cons_eq h⟩

/-- Neither a digit nor a point stands behind a fraction. -/
theorem head_exponentText {exponent : Option Int} {rest : List Char} (hrest : EndsValue rest) :
    ∀ c ∈ (exponentText exponent ++ rest).head?, c.isDigit = false ∧ c ≠ '.' := by
  cases exponent with
  | none =>
    intro c hc
    rcases hrest c hc with rfl | rfl | rfl <;> decide
  | some e =>
    rintro c ⟨⟩
    decide

/-- No digit stands behind the whole digits. -/
theorem head_fractionText {fraction : Option (List Char)} {exponent : Option Int}
    {rest : List Char} (hrest : EndsValue rest) :
    ∀ c ∈ (fractionText fraction ++ (exponentText exponent ++ rest)).head?, c.isDigit = false := by
  cases fraction with
  | none => exact fun c hc => (head_exponentText hrest c hc).1
  | some digits =>
    rintro c ⟨⟩
    rfl

/-- The text of a number and what follows it determine the parts. -/
theorem parts_unique {m m' : Numeral} {rest rest' : List Char} (hm : m.IsWellFormed)
    (hm' : m'.IsWellFormed) (hrest : EndsValue rest) (hrest' : EndsValue rest')
    (h : m.text ++ rest = m'.text ++ rest') : m = m' ∧ rest = rest' := by
  obtain ⟨b, whole, fraction, exponent⟩ := m
  obtain ⟨b', whole', fraction', exponent'⟩ := m'
  simp only [text, List.append_assoc] at h
  have hhead : ∀ {whole tail : List Char}, whole ≠ [] → (∀ c ∈ whole, c.isDigit = true) →
      ∀ c ∈ (whole ++ tail).head?, c.isDigit = true := by
    intro whole tail hne hdigits c hc
    rw [List.head?_append_of_ne_nil _ hne] at hc
    exact hdigits c (List.mem_of_mem_head? hc)
  -- The parts are read one after the other, each from all that is left.
  obtain ⟨rfl, hwhole⟩ := signText_append_inj h (hhead hm.whole_ne_nil hm.whole_digits)
    (hhead hm'.whole_ne_nil hm'.whole_digits)
  have hsplit := congrArg splitDigits hwhole
  rw [splitDigits_append hm.whole_digits (head_fractionText hrest),
    splitDigits_append hm'.whole_digits (head_fractionText hrest')] at hsplit
  obtain ⟨rfl, hfraction⟩ := Prod.mk.inj hsplit
  have hread := congrArg fraction? hfraction
  rw [fraction?_append hm.fraction_ne_nil hm.fraction_digits (head_exponentText hrest),
    fraction?_append hm'.fraction_ne_nil hm'.fraction_digits (head_exponentText hrest')] at hread
  obtain ⟨rfl, hexponent⟩ := Prod.mk.inj (Option.some.inj hread)
  have hread' := congrArg exponent? hexponent
  rw [exponent?_append _ hrest, exponent?_append _ hrest'] at hread'
  obtain ⟨rfl, rfl⟩ := Prod.mk.inj (Option.some.inj hread')
  exact ⟨rfl, rfl⟩

/-! ### Layouts -/

/-- A fraction of these digits, if there are any. -/
def fractionOf (digits : List Char) : Option (List Char) :=
  if digits.isEmpty then none else some digits

theorem fractionOf_getD (digits : List Char) : (fractionOf digits).getD [] = digits := by
  cases digits <;> rfl

theorem fractionOf_ne (digits : List Char) : fractionOf digits ≠ some [] := by
  cases digits <;> nofun

/-- The parts in which digits are written: as a whole number, with the point inside, with zeros in
    front, or with an exponent. -/
def ofDecimal (isNegative : Bool) (d : Double.Decimal) : Numeral :=
  let digits := Nat.toDigits 10 d.digits
  let point : Int := digits.length + d.exponent
  if 0 ≤ d.exponent ∧ point ≤ Double.jsonLayout.maxWhole then
    ⟨isNegative, digits ++ List.replicate d.exponent.toNat '0', some ['0'], none⟩
  else if 0 < point ∧ point ≤ Double.jsonLayout.maxWhole then
    ⟨isNegative, digits.take point.toNat, some (digits.drop point.toNat), none⟩
  else if -Double.jsonLayout.maxZeros < point ∧ point ≤ 0 then
    ⟨isNegative, ['0'], some (List.replicate (-point).toNat '0' ++ digits), none⟩
  else
    ⟨isNegative, digits.take 1, fractionOf (digits.drop 1), some (point - 1)⟩

variable (b : Bool) (d : Double.Decimal)

theorem ofDecimal_text :
    (ofDecimal b d).text = signText b ++ (Double.jsonLayout.write d).toList := by
  rw [ofDecimal, Double.Layout.write]
  split_ifs with hwhole hpoint hzeros
  · simp [text, fractionText, exponentText, Double.jsonLayout]
  · simp [text, fractionText, exponentText]
  · simp [text, fractionText, exponentText]
  · cases hdrop : (Nat.toDigits 10 d.digits).drop 1 with
    | nil => simp [text, fractionOf, fractionText, exponentText, Double.jsonLayout]
    | cons c tail => simp [text, fractionOf, fractionText, exponentText, Double.jsonLayout]

theorem ofDecimal_isWellFormed : (ofDecimal b d).IsWellFormed := by
  have hdigits := isDigit_toDigits d.digits
  have hne := @Nat.toDigits_ne_nil d.digits 10
  have hlength := List.length_pos_of_ne_nil hne
  rw [ofDecimal]
  split_ifs with hwhole hpoint hzeros
  · refine ⟨List.append_ne_nil_of_left_ne_nil hne _, ?_, nofun, isDigit_zeros 1⟩
    exact List.forall_mem_append.2 ⟨hdigits, isDigit_zeros _⟩
  · refine ⟨?_, fun c hc => hdigits c (List.mem_of_mem_take hc), ?_,
      fun c hc => hdigits c (List.mem_of_mem_drop hc)⟩
    · rw [Ne, List.take_eq_nil_iff]
      exact not_or.2 ⟨by omega, hne⟩
    · rw [Ne, Option.some_inj, List.drop_eq_nil_iff]
      omega
  · refine ⟨List.cons_ne_nil _ _, isDigit_zeros 1, ?_, ?_⟩
    · rw [Ne, Option.some_inj]
      exact List.append_ne_nil_of_right_ne_nil _ hne
    · exact List.forall_mem_append.2 ⟨isDigit_zeros _, hdigits⟩
  · refine ⟨?_, fun c hc => hdigits c (List.mem_of_mem_take hc), fractionOf_ne _, ?_⟩
    · rw [Ne, List.take_eq_nil_iff]
      exact not_or.2 ⟨Nat.one_ne_zero, hne⟩
    · rw [fractionOf_getD]
      exact fun c hc => hdigits c (List.mem_of_mem_drop hc)

theorem ofDecimal_isNegative : (ofDecimal b d).isNegative = b := by
  rw [ofDecimal]
  split_ifs <;> rfl

theorem ofDecimal_isFloat :
    (ofDecimal b d).fraction ≠ none ∨ (ofDecimal b d).exponent ≠ none := by
  rw [ofDecimal]
  split_ifs <;> simp

variable {b : Bool} {d : Double.Decimal}

/-- Zeros behind the digits and the exponent make up for each other. -/
theorem magnitude_eq {m : Numeral} {k : Nat}
    (hdigits : digitsValue (m.whole ++ m.fraction.getD []) = 10 ^ k * d.digits)
    (hexponent : m.exponent.getD 0 - (m.fraction.getD []).length + k = d.exponent) :
    m.magnitude = d.value := by
  rw [magnitude, hdigits, Double.Decimal.value, ← hexponent, zpow_add₀ (by norm_num), zpow_natCast]
  push_cast
  ring

theorem ofDecimal_magnitude : (ofDecimal b d).magnitude = d.value := by
  have hlength := @Nat.length_toDigits_pos 10 d.digits
  have hvalue := digitsValue_toDigits d.digits
  rw [ofDecimal]
  split_ifs with hwhole hpoint hzeros
  · -- The zeros and the one behind the point make the digits longer than those of the decimal.
    refine @magnitude_eq _ _ (d.exponent.toNat + 1) ?_ ?_
    · have hzero : digitsValue ['0'] = 0 := rfl
      simp only [Option.getD_some, digitsValue_append, hvalue, digitsValue_zeros, hzero,
        List.length_replicate, List.length_singleton]
      ring
    · simp
      omega
  · refine @magnitude_eq _ _ 0 ?_ ?_
    · simp [hvalue]
    · simp
      omega
  · refine @magnitude_eq _ _ 0 ?_ ?_
    · have hzero : digitsValue ['0'] = 0 := rfl
      simp only [Option.getD_some, digitsValue_append, hvalue, digitsValue_zeros, hzero]
      ring
    · simp
      omega
  · refine @magnitude_eq _ _ 0 ?_ ?_
    · rw [fractionOf_getD, List.take_append_drop, hvalue, Nat.pow_zero, Nat.one_mul]
    · simp only [fractionOf_getD, List.length_drop, Option.getD_some]
      omega

/-! ### Numbers -/

/-- The parts stand for the number: an integer has neither fraction nor exponent, a float one of the
    two, and the digits of a float are its shortest ones. -/
def Denotes (m : Numeral) : Number → Prop
  | .int i => (m.fraction = none ∧ m.exponent = none) ∧
      m.isNegative = decide (i < 0) ∧ digitsValue m.whole = i.natAbs
  | .float x => (m.fraction ≠ none ∨ m.exponent ≠ none) ∧
      m.isNegative = x.isNegative ∧ m.magnitude = if x.isZero then 0 else x.shortest.value

/-- The text of a number is that of well-formed parts which stand for it. -/
theorem exists_text_eq {n : Number} (h : n.isFinite) :
    ∃ m : Numeral, m.IsWellFormed ∧ m.text = n.text.toList ∧ m.Denotes n := by
  cases n with
  | int i =>
    refine ⟨⟨i < 0, Nat.toDigits 10 i.natAbs, none, none⟩, ?_, ?_, ⟨rfl, rfl⟩, rfl,
      digitsValue_toDigits _⟩
    · exact ⟨Nat.toDigits_ne_nil, isDigit_toDigits _, nofun, nofun⟩
    · rw [Number.text, toList_toString]
      simp [text, signText, fractionText, exponentText]
  | float x =>
    rw [Number.text, if_pos (show x.isFinite = true from h), Double.toText]
    cases hzero : x.isZero with
    | true =>
      refine ⟨⟨x.isNegative, ['0'], some ['0'], none⟩, ?_, ?_, .inl nofun, rfl, ?_⟩
      · exact ⟨List.cons_ne_nil _ _, isDigit_zeros 1, nofun, isDigit_zeros 1⟩
      · cases x.isNegative <;>
          simp [text, signText, fractionText, exponentText, Double.jsonLayout]
      · rw [hzero, if_pos rfl]
        exact zero_mul _
    | false =>
      refine ⟨ofDecimal x.isNegative x.shortest, ofDecimal_isWellFormed _ _, ?_,
        ofDecimal_isFloat _ _, ?_, ?_⟩
      · rw [ofDecimal_text]
        cases x.isNegative <;> simp [signText]
      · exact ofDecimal_isNegative _ _
      · rw [hzero, if_neg Bool.false_ne_true, ofDecimal_magnitude]

/-- Two floats of the same sign with the same shortest digits are the same. -/
theorem eq_of_shortest {x y : Double} (hsign : x.isNegative = y.isNegative)
    (h : (if x.isZero then 0 else x.shortest.value) = if y.isZero then 0 else y.shortest.value) :
    x = y := by
  refine Double.ext_rank hsign ?_
  by_cases hx : x.isZero = true
  · by_cases hy : y.isZero = true
    · rw [(Double.isZero_iff x).1 hx, (Double.isZero_iff y).1 hy]
    · rw [if_pos hx, if_neg hy] at h
      exact absurd h (Double.shortest_pos (mt y.isZero_iff.2 hy)).ne
  · by_cases hy : y.isZero = true
    · rw [if_neg hx, if_pos hy] at h
      exact absurd h (Double.shortest_pos (mt x.isZero_iff.2 hx)).ne'
    · rw [if_neg hx, if_neg hy] at h
      rw [Double.isZero_iff] at hx hy
      have hattracts := Double.attracts_shortest hx
      rw [h] at hattracts
      exact hattracts.unique (Double.attracts_shortest hy)

/-- Parts stand for one number. -/
theorem Denotes.unique {m : Numeral} {n n' : Number} (h : m.Denotes n) (h' : m.Denotes n') :
    n = n' := by
  cases n with
  | int i =>
    obtain ⟨⟨hfraction, hexponent⟩, hsign, hvalue⟩ := h
    cases n' with
    | int j =>
      obtain ⟨-, hsign', hvalue'⟩ := h'
      have hiff := decide_eq_decide.1 (hsign.symm.trans hsign')
      exact congrArg Number.int (by omega)
    | float y => exact absurd h'.1 (not_or.2 ⟨not_not.2 hfraction, not_not.2 hexponent⟩)
  | float x =>
    obtain ⟨hparts, hsign, hvalue⟩ := h
    cases n' with
    | int j =>
      obtain ⟨⟨hfraction, hexponent⟩, -⟩ := h'
      exact absurd hparts (not_or.2 ⟨not_not.2 hfraction, not_not.2 hexponent⟩)
    | float y =>
      exact congrArg Number.float
        (eq_of_shortest (hsign.symm.trans h'.2.1) (hvalue.symm.trans h'.2.2))

end Numeral

end Json

/-- The text of a number and what follows it determine the number. -/
theorem Number.text_unique {n n' : Number} {rest rest' : List Char} (hn : n.isFinite)
    (hn' : n'.isFinite) (hrest : Json.EndsValue rest) (hrest' : Json.EndsValue rest')
    (h : n.text.toList ++ rest = n'.text.toList ++ rest') : n = n' ∧ rest = rest' := by
  obtain ⟨m, hm, htext, hdenotes⟩ := Json.Numeral.exists_text_eq hn
  obtain ⟨m', hm', htext', hdenotes'⟩ := Json.Numeral.exists_text_eq hn'
  rw [← htext, ← htext'] at h
  obtain ⟨rfl, hrests⟩ := Json.Numeral.parts_unique hm hm' hrest hrest' h
  exact ⟨hdenotes.unique hdenotes', hrests⟩

end RecordStore
