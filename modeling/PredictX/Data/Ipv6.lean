import Mathlib

namespace PredictX.Data

/-! Textual IPv6 addresses.

An address is eight groups of up to four hexadecimal digits; one `::` may stand for a run of zero
groups.  Zones and embedded IPv4 addresses are left out.
-/

def hexDigits : List Char :=
  ['0', '1', '2', '3', '4', '5', '6', '7', '8', '9', 'a', 'b', 'c', 'd', 'e', 'f',
    'A', 'B', 'C', 'D', 'E', 'F']

/-- The value of a hexadecimal digit. -/
def digitValue (digit : Char) : ℕ :=
  let place := hexDigits.idxOf digit
  if place < 16 then place else place - 6

/-- The digit of a value below sixteen, in lower case. -/
def hexDigit (value : ℕ) : Char := hexDigits.getD value '0'

/-- The number that some hexadecimal digits spell. -/
def hexValue (digits : List Char) : ℕ :=
  digits.foldl (fun value digit => 16 * value + digitValue digit) 0

/-- A number below 65536 in four digits. -/
def hexText (value : ℕ) : List Char :=
  [hexDigit (value / 4096 % 16), hexDigit (value / 256 % 16), hexDigit (value / 16 % 16),
    hexDigit (value % 16)]

theorem digitValue_hexDigit {value : ℕ} (small : value < 16) :
    digitValue (hexDigit value) = value := by
  interval_cases value <;> rfl

theorem digitValue_lt {digit : Char} (isHex : digit ∈ hexDigits) : digitValue digit < 16 := by
  have each : hexDigits.all fun digit => digitValue digit < 16 := by decide
  exact of_decide_eq_true (List.all_eq_true.mp each digit isHex)

/-- The digits in lower case are those that their values are written as. -/
theorem hexDigit_digitValue_iff {digit : Char} (isHex : digit ∈ hexDigits) :
    hexDigit (digitValue digit) = digit ↔ digit.isUpper = false := by
  have each : hexDigits.all fun digit =>
      decide (hexDigit (digitValue digit) = digit ↔ digit.isUpper = false) := by decide
  exact of_decide_eq_true (List.all_eq_true.mp each digit isHex)

theorem hexText_hex (value : ℕ) : ∀ digit ∈ hexText value, digit ∈ hexDigits := by
  have each : ∀ value < 16, hexDigit value ∈ hexDigits := by decide
  simp only [hexText, List.forall_mem_cons]
  refine ⟨each _ ?_, each _ ?_, each _ ?_, each _ ?_, by simp⟩ <;> exact Nat.mod_lt _ (by decide)

theorem hexValue_hexText {value : ℕ} (small : value < 65536) :
    hexValue (hexText value) = value := by
  have below : ∀ number : ℕ, number % 16 < 16 := fun number => Nat.mod_lt _ (by decide)
  simp only [hexValue, hexText, List.foldl_cons, List.foldl_nil, digitValue_hexDigit (below _)]
  omega

/-- Four digits are the text of their value if and only if none is a capital. -/
theorem hexText_hexValue_iff {digits : List Char} (four : digits.length = 4)
    (isHex : ∀ digit ∈ digits, digit ∈ hexDigits) :
    hexText (hexValue digits) = digits ↔ ∀ digit ∈ digits, digit.isUpper = false := by
  match digits, four with
  | [first, second, third, fourth], _ =>
      simp only [List.forall_mem_cons] at isHex
      obtain ⟨isFirst, isSecond, isThird, isFourth, _⟩ := isHex
      have firstSmall := digitValue_lt isFirst
      have secondSmall := digitValue_lt isSecond
      have thirdSmall := digitValue_lt isThird
      have fourthSmall := digitValue_lt isFourth
      have value : hexValue [first, second, third, fourth] =
          4096 * digitValue first + 256 * digitValue second + 16 * digitValue third +
            digitValue fourth := by
        simp only [hexValue, List.foldl_cons, List.foldl_nil]
        omega
      have places : hexText (hexValue [first, second, third, fourth]) =
          [hexDigit (digitValue first), hexDigit (digitValue second),
            hexDigit (digitValue third), hexDigit (digitValue fourth)] := by
        have high : hexValue [first, second, third, fourth] / 4096 % 16 = digitValue first := by
          omega
        have upper : hexValue [first, second, third, fourth] / 256 % 16 = digitValue second := by
          omega
        have lower : hexValue [first, second, third, fourth] / 16 % 16 = digitValue third := by
          omega
        have low : hexValue [first, second, third, fourth] % 16 = digitValue fourth := by omega
        rw [hexText, high, upper, lower, low]
      rw [places]
      simp [hexDigit_digitValue_iff isFirst, hexDigit_digitValue_iff isSecond,
        hexDigit_digitValue_iff isThird, hexDigit_digitValue_iff isFourth]

theorem hexValue_replicate_append (count : ℕ) (digits : List Char) :
    hexValue (List.replicate count '0' ++ digits) = hexValue digits := by
  have zeros : (List.replicate count '0').foldl
      (fun value digit => 16 * value + digitValue digit) 0 = 0 := by
    induction count with
    | zero => rfl
    | succ count ih => exact ih
  rw [hexValue, List.foldl_append, zeros, hexValue]

theorem hexValue_lt {digits : List Char} (short : digits.length ≤ 4)
    (isHex : ∀ digit ∈ digits, digit ∈ hexDigits) : hexValue digits < 65536 := by
  have bound : ∀ digits : List Char, (∀ digit ∈ digits, digit ∈ hexDigits) →
      hexValue digits < 16 ^ digits.length := by
    intro digits
    induction digits using List.reverseRecOn with
    | nil => exact fun _ => Nat.one_pos
    | append_singleton digits digit ih =>
        intro isHex
        have before := ih fun other member => isHex other (List.mem_append_left _ member)
        have last := digitValue_lt (isHex digit (by simp))
        have value : hexValue (digits ++ [digit]) = 16 * hexValue digits + digitValue digit := by
          simp [hexValue]
        rw [value, List.length_append, List.length_singleton, pow_succ]
        omega
  calc hexValue digits < 16 ^ digits.length := bound digits isHex
    _ ≤ 16 ^ 4 := Nat.pow_le_pow_right (by decide) short

/-! # Addresses -/

/-- A group as it is written. -/
structure Hextet where
  digits : List Char
  nonempty : digits ≠ []
  short : digits.length ≤ 4
  isHex : ∀ digit ∈ digits, digit ∈ hexDigits

def Hextet.value (hextet : Hextet) : ℕ := hexValue hextet.digits

/-- No digit is a capital letter. -/
def Hextet.IsLower (hextet : Hextet) : Prop := ∀ digit ∈ hextet.digits, digit.isUpper = false

/-- A spelling of an address. -/
inductive Ipv6 where
  | full (hextets : List Hextet) (eight : hextets.length = 8)
  | compressed (head tail : List Hextet) (short : head.length + tail.length ≤ 7)

namespace Ipv6

/-- What is written before a `::`, or all of it. -/
def head : Ipv6 → List Hextet
  | full hextets _ => hextets
  | compressed head _ _ => head

/-- What is written behind a `::`. -/
def tail : Ipv6 → List Hextet
  | full _ _ => []
  | compressed _ tail _ => tail

def text : Ipv6 → List Char
  | full hextets _ => [':'].intercalate (hextets.map Hextet.digits)
  | compressed head tail _ =>
      [':'].intercalate (head.map Hextet.digits) ++ [':', ':'] ++
        [':'].intercalate (tail.map Hextet.digits)

/-- The eight groups of sixteen bits. -/
def words (address : Ipv6) : List ℕ :=
  address.head.map Hextet.value ++
    List.replicate (8 - address.head.length - address.tail.length) 0 ++
    address.tail.map Hextet.value

/-- The first 64 bits. -/
def network (address : Ipv6) : List ℕ := address.words.take 4

theorem length_words (address : Ipv6) : address.words.length = 8 := by
  cases address with
  | full hextets eight => simp [words, head, tail, eight]
  | compressed head tail short =>
      simp only [words, Ipv6.head, Ipv6.tail, List.length_append, List.length_map,
        List.length_replicate]
      omega

/-- Fewer than eight groups before the `::` leave it a zero group at least. -/
theorem gap_pos {address : Ipv6} (few : address.head.length < 8) :
    0 < 8 - address.head.length - address.tail.length := by
  cases address with
  | full hextets eight => exact absurd eight few.ne
  | compressed head tail short =>
      simp only [Ipv6.head, Ipv6.tail]
      omega

/-- The parts between the colons. -/
def parts : Ipv6 → List (List Char)
  | full hextets _ => hextets.map Hextet.digits
  | compressed head tail _ =>
      (if head = [] then [[]] else head.map Hextet.digits) ++ [[]] ++
        if tail = [] then [[]] else tail.map Hextet.digits

theorem intercalate_append {α : Type} {between : α} {left right : List (List α)}
    (leftNonempty : left ≠ []) (rightNonempty : right ≠ []) :
    [between].intercalate (left ++ right) =
      [between].intercalate left ++ between :: [between].intercalate right := by
  induction left with
  | nil => exact absurd rfl leftNonempty
  | cons first rest ih =>
      cases rest with
      | nil =>
          rw [List.singleton_append, List.intercalate_cons_of_ne_nil rightNonempty,
            List.intercalate_singleton, List.append_assoc, List.singleton_append]
      | cons second rest =>
          rw [List.cons_append, List.intercalate_cons_of_ne_nil (by simp),
            ih (List.cons_ne_nil _ _), List.intercalate_cons_of_ne_nil (List.cons_ne_nil _ _),
            List.append_assoc, List.append_assoc, List.append_assoc]

theorem text_eq_intercalate (address : Ipv6) : address.text = [':'].intercalate address.parts := by
  cases address with
  | full hextets eight => rfl
  | compressed head tail short =>
      have side : ∀ hextets : List Hextet,
          [':'].intercalate (if hextets = [] then [[]] else hextets.map Hextet.digits) =
            [':'].intercalate (hextets.map Hextet.digits) := by
        intro hextets
        cases hextets <;> rfl
      have sideNonempty : ∀ hextets : List Hextet,
          (if hextets = [] then [[]] else hextets.map Hextet.digits) ≠ [] := by
        intro hextets
        cases hextets <;> simp
      rw [parts, intercalate_append (by simp) (sideNonempty tail),
        intercalate_append (sideNonempty head) (by simp), side, side]
      simp [text]

theorem mem_parts {address : Ipv6} {part : List Char} (member : part ∈ address.parts) :
    part = [] ∨ ∃ hextet ∈ address.head ++ address.tail, part = hextet.digits := by
  have side : ∀ hextets : List Hextet,
      part ∈ (if hextets = [] then [[]] else hextets.map Hextet.digits) →
        part = [] ∨ ∃ hextet ∈ hextets, part = hextet.digits := by
    intro hextets inSide
    split at inSide
    · exact .inl (List.mem_singleton.mp inSide)
    · obtain ⟨hextet, isHextet, rfl⟩ := List.mem_map.mp inSide
      exact .inr ⟨hextet, isHextet, rfl⟩
  cases address with
  | full hextets eight =>
      obtain ⟨hextet, isHextet, rfl⟩ := List.mem_map.mp member
      exact .inr ⟨hextet, List.mem_append_left _ isHextet, rfl⟩
  | compressed head tail short =>
      rcases List.mem_append.mp member with before | inTail
      · rcases List.mem_append.mp before with inHead | isEmpty
        · exact (side head inHead).imp_right fun ⟨hextet, isHextet, same⟩ =>
            ⟨hextet, List.mem_append_left _ isHextet, same⟩
        · exact .inl (List.mem_singleton.mp isEmpty)
      · exact (side tail inTail).imp_right fun ⟨hextet, isHextet, same⟩ =>
          ⟨hextet, List.mem_append_right _ isHextet, same⟩

theorem splitOn_text (address : Ipv6) : address.text.splitOn ':' = address.parts := by
  rw [text_eq_intercalate]
  refine List.splitOn_intercalate ':' (fun part member => ?_) ?_
  · obtain rfl | ⟨hextet, _, rfl⟩ := mem_parts member
    · exact List.not_mem_nil
    · exact fun colon => absurd (hextet.isHex _ colon) (by decide)
  · cases address with
    | full hextets eight =>
        intro empty
        rw [List.map_eq_nil_iff.mp empty] at eight
        cases eight
    | compressed head tail short => simp [parts]

/-- The parts that are not empty. -/
theorem filter_parts (address : Ipv6) :
    (address.parts.filter fun part => part ≠ []) =
      (address.head ++ address.tail).map Hextet.digits := by
  have kept : ∀ hextets : List Hextet,
      ((hextets.map Hextet.digits).filter fun part => part ≠ []) = hextets.map Hextet.digits := by
    intro hextets
    rw [List.filter_eq_self]
    intro part member
    obtain ⟨hextet, _, rfl⟩ := List.mem_map.mp member
    simpa using hextet.nonempty
  have side : ∀ hextets : List Hextet,
      ((if hextets = [] then [[]] else hextets.map Hextet.digits).filter fun part => part ≠ []) =
        hextets.map Hextet.digits := by
    intro hextets
    split
    · rename_i empty
      rw [empty]
      rfl
    · exact kept hextets
  cases address with
  | full hextets eight =>
      rw [parts, kept, head, tail, List.append_nil]
  | compressed head tail short =>
      rw [parts, List.filter_append, List.filter_append, side, side, List.map_append]
      simp [Ipv6.head, Ipv6.tail]

theorem colon_mem_text (address : Ipv6) : ':' ∈ address.text := by
  cases address with
  | full hextets eight =>
      match hextets, eight with
      | first :: second :: rest, _ =>
          rw [text, List.map_cons, List.map_cons, List.intercalate_cons_cons]
          simp
  | compressed head tail short => simp [text]

/-- A number below 65536 with all digits and in lower case. -/
def hextetOf (value : ℕ) : Hextet where
  digits := hexText value
  nonempty := List.cons_ne_nil _ _
  short := le_refl 4
  isHex := hexText_hex value

theorem value_hextetOf {value : ℕ} (small : value < 65536) : (hextetOf value).value = value :=
  hexValue_hexText small

theorem hextetOf_isLower (value : ℕ) : (hextetOf value).IsLower := by
  have each : ∀ digit, (hexDigit (digit % 16)).isUpper = false := by
    intro digit
    have small : digit % 16 < 16 := Nat.mod_lt _ (by decide)
    generalize digit % 16 = value at small
    interval_cases value <;> rfl
  simp only [Hextet.IsLower, hextetOf, hexText, List.forall_mem_cons, each, true_and]
  exact List.forall_mem_nil _

theorem word_lt {address : Ipv6} {word : ℕ} (member : word ∈ address.words) : word < 65536 := by
  have each : ∀ hextets : List Hextet, word ∈ hextets.map Hextet.value → word < 65536 := by
    intro hextets listed
    obtain ⟨hextet, _, rfl⟩ := List.mem_map.mp listed
    exact hexValue_lt hextet.short hextet.isHex
  rcases List.mem_append.mp member with before | inTail
  · rcases List.mem_append.mp before with inHead | zero
    · exact each _ inHead
    · rw [List.eq_of_mem_replicate zero]
      decide
  · exact each _ inTail

/-- The same address with every digit written, in lower case. -/
def spelledOut (address : Ipv6) : Ipv6 :=
  .full (address.words.map hextetOf) (by rw [List.length_map, address.length_words])

theorem words_spelledOut (address : Ipv6) : address.spelledOut.words = address.words := by
  have values : (address.words.map hextetOf).map Hextet.value = address.words := by
    rw [List.map_map]
    refine (List.map_congr_left fun word member => ?_).trans (List.map_id _)
    exact value_hextetOf (word_lt member)
  have length := address.length_words
  simp only [spelledOut, words, head, tail, List.map_nil, List.append_nil, List.length_map,
    List.length_nil, Nat.sub_zero]
  change (address.words.map hextetOf).map Hextet.value ++
    List.replicate (8 - address.words.length) 0 = address.words
  rw [values, length]
  exact List.append_nil _

end Ipv6

end PredictX.Data
