import PredictX.Data.Ipv6
import PredictX.Services.SlidingWindow

namespace PredictX.RateLimitService

open PredictX.Data

/-! Which spellings of an address are kept under its /64 network.

The groups that the normalised text shows are the first four that are written, in the letters in
which they are written.  Groups behind a `::` are moved to the front if fewer than four stand before
it, which leaves the network as it is only where they are zero.
-/

/-! # The groups that are taken -/

/-- What the normalised text is made of. -/
def taken (address : Ipv6) : List Hextet := (address.head ++ address.tail).take 4

/-- Nothing but zeros is taken from behind a `::`, and no capital letter at all. -/
def ReadsRight (address : Ipv6) : Prop :=
  (∀ hextet ∈ address.tail.take (4 - address.head.length), hextet.value = 0) ∧
    ∀ hextet ∈ taken address, hextet.IsLower

def keyParts (address : Ipv6) : List (List Char) :=
  (taken address).map (fun hextet => zfill 4 hextet.digits) ++
    List.replicate (4 - (taken address).length) (hexText 0)

/-- The numbers that these parts spell. -/
def readWords (address : Ipv6) : List ℕ :=
  (taken address).map Hextet.value ++ List.replicate (4 - (taken address).length) 0

theorem zfill_hextet (hextet : Hextet) :
    zfill 4 hextet.digits =
      List.replicate (4 - hextet.digits.length) '0' ++ hextet.digits := by
  cases isDigits : hextet.digits with
  | nil => exact absurd isDigits hextet.nonempty
  | cons first rest =>
      have isHex : first ∈ hexDigits :=
        hextet.isHex first (by rw [isDigits]; exact List.mem_cons_self)
      have unsigned : ¬ (first = '+' ∨ first = '-') := by
        rintro (rfl | rfl)
        · exact absurd isHex (by decide)
        · exact absurd isHex (by decide)
      rw [zfill, if_neg unsigned]

theorem hexValue_zfill (hextet : Hextet) : hexValue (zfill 4 hextet.digits) = hextet.value := by
  rw [zfill_hextet, hexValue_replicate_append, Hextet.value]

/-- A group is written out as its value if and only if it has no capital letter. -/
theorem zfill_eq_hexText_iff (hextet : Hextet) :
    zfill 4 hextet.digits = hexText hextet.value ↔ hextet.IsLower := by
  have four : (zfill 4 hextet.digits).length = 4 := by
    rw [zfill_hextet, List.length_append, List.length_replicate]
    have short := hextet.short
    omega
  have isHex : ∀ digit ∈ zfill 4 hextet.digits, digit ∈ hexDigits := by
    intro digit member
    rw [zfill_hextet] at member
    rcases List.mem_append.mp member with zero | written
    · rw [List.eq_of_mem_replicate zero]
      decide
    · exact hextet.isHex digit written
  have places := hexText_hexValue_iff four isHex
  rw [hexValue_zfill] at places
  rw [eq_comm, places, Hextet.IsLower, zfill_hextet]
  constructor
  · exact fun lower digit written => lower digit (List.mem_append_right _ written)
  · intro lower digit member
    rcases List.mem_append.mp member with zero | written
    · rw [List.eq_of_mem_replicate zero]
      rfl
    · exact lower digit written

theorem normalizeIp_text (address : Ipv6) :
    normalizeIp address.text = [':'].intercalate (keyParts address) ++ [':', ':'] := by
  have zeros : ['0', '0', '0', '0'] = hexText 0 := rfl
  rw [normalizeIp, if_neg (not_not_intro address.colon_mem_text), address.splitOn_text]
  simp only [address.filter_parts, List.length_map, zeros]
  by_cases enough : 4 ≤ (address.head ++ address.tail).length
  · have none : 4 - (taken address).length = 0 := by
      rw [taken, List.length_take]
      omega
    rw [if_pos enough, keyParts, none, List.replicate_zero, List.append_nil, taken, List.map_take,
      List.map_take, List.map_map]
    rfl
  · have all : taken address = address.head ++ address.tail :=
      List.take_of_length_le (not_le.mp enough).le
    rw [if_neg enough, keyParts, all, List.map_map, List.take_of_length_le]
    · rfl
    · rw [List.length_append, List.length_map, List.length_replicate]
      omega

theorem keyParts_plain (address : Ipv6) : ∀ part ∈ keyParts address, ':' ∉ part := by
  intro part member colon
  have noColon : ':' ∉ hexDigits := by decide
  rcases List.mem_append.mp member with isTaken | isZero
  · obtain ⟨hextet, _, rfl⟩ := List.mem_map.mp isTaken
    rw [zfill_hextet] at colon
    rcases List.mem_append.mp colon with zero | written
    · exact absurd (List.eq_of_mem_replicate zero) (by decide)
    · exact noColon (hextet.isHex _ written)
  · rw [List.eq_of_mem_replicate isZero] at colon
    exact noColon (hexText_hex 0 _ colon)

theorem length_keyParts (address : Ipv6) : (keyParts address).length = 4 := by
  rw [keyParts, List.length_append, List.length_map, List.length_replicate]
  have atMost : (taken address).length ≤ 4 := List.length_take_le _ _
  omega

theorem normalizeIp_eq_iff (left right : Ipv6) :
    normalizeIp left.text = normalizeIp right.text ↔ keyParts left = keyParts right := by
  have split : ∀ address,
      ([':'].intercalate (keyParts address)).splitOn ':' = keyParts address := by
    intro address
    refine List.splitOn_intercalate ':' (keyParts_plain address) fun empty => ?_
    have length := length_keyParts address
    rw [empty] at length
    cases length
  rw [normalizeIp_text, normalizeIp_text, List.append_left_inj]
  constructor
  · intro same
    rw [← split left, same, split]
  · exact congrArg _

/-! # Reading the network -/

/-- Numbers that are moved to the front across a gap of zeros stay what they are only as zeros. -/
theorem moved_eq_iff {values : List ℕ} {gap count : ℕ} (gapped : 0 < gap)
    (room : count ≤ gap + values.length) :
    values.take count ++ List.replicate (count - (values.take count).length) 0 =
        (List.replicate gap 0 ++ values).take count ↔
      ∀ value ∈ values.take count, value = 0 := by
  constructor
  · intro same
    have zero : ∀ index value, index < count → values[index]? = some value → value = 0 := by
      intro index
      induction index using Nat.strong_induction_on with
      | _ index ih =>
          intro value inside found
          have here := congrArg (fun list => list[index]?) same
          have isTaken : index < (values.take count).length := by
            rw [List.length_take, lt_min_iff]
            exact ⟨inside, (List.getElem?_eq_some_iff.mp found).1⟩
          simp only [List.getElem?_append_left isTaken, List.getElem?_take_of_lt inside, found]
            at here
          by_cases inGap : index < gap
          · rw [List.getElem?_append_left (by simpa using inGap)] at here
            simpa [inGap] using here
          · rw [List.getElem?_append_right (by simpa using inGap), List.length_replicate] at here
            exact ih (index - gap) (by omega) value (by omega) here.symm
    intro value member
    obtain ⟨index, inside, rfl⟩ := List.mem_iff_getElem.mp member
    rw [List.length_take, lt_min_iff] at inside
    exact zero index _ inside.1 (by rw [List.getElem_take, List.getElem?_eq_getElem inside.2])
  · intro zeros
    have front : values.take count = List.replicate (values.take count).length 0 :=
      List.eq_replicate_iff.mpr ⟨rfl, zeros⟩
    have atMost : (values.take count).length ≤ count := List.length_take_le _ _
    have back : (List.replicate gap 0 ++ values).take count = List.replicate count 0 := by
      refine List.eq_replicate_iff.mpr ⟨?_, fun value member => ?_⟩
      · rw [List.length_take, List.length_append, List.length_replicate]
        exact Nat.min_eq_left room
      · rw [List.take_append] at member
        rcases List.mem_append.mp member with inGap | later
        · exact List.eq_of_mem_replicate (List.mem_of_mem_take inGap)
        · exact zeros value (List.take_subset_take_left values (Nat.sub_le _ _) later)
    rw [front, List.length_replicate, List.replicate_append_replicate, back]
    congr 1
    omega

theorem readWords_eq_network_iff (address : Ipv6) :
    readWords address = address.network ↔
      ∀ hextet ∈ address.tail.take (4 - address.head.length), hextet.value = 0 := by
  by_cases inFront : 4 ≤ address.head.length
  · have none : 4 - address.head.length = 0 := by omega
    have whole : taken address = address.head.take 4 := List.take_append_of_le_length inFront
    have four : (taken address).length = 4 := by
      rw [whole, List.length_take]
      omega
    rw [none, List.take_zero]
    refine iff_of_true ?_ (List.forall_mem_nil _)
    rw [readWords, four, Nat.sub_self, List.replicate_zero, List.append_nil, whole, Ipv6.network,
      Ipv6.words, List.append_assoc, List.take_append_of_le_length (by simpa using inFront),
      List.map_take]
  · have few := not_le.mp inFront
    have gapped := Ipv6.gap_pos (few.trans (by decide))
    have whole : taken address = address.head ++ address.tail.take (4 - address.head.length) := by
      rw [taken, List.take_append, List.take_of_length_le few.le]
    have split : address.network = address.head.map Hextet.value ++
        (List.replicate (8 - address.head.length - address.tail.length) 0 ++
          address.tail.map Hextet.value).take (4 - address.head.length) := by
      rw [Ipv6.network, Ipv6.words, List.append_assoc, List.take_append, List.length_map,
        List.take_of_length_le (by simpa using few.le)]
    have rest : 4 - (taken address).length = 4 - address.head.length -
        ((address.tail.map Hextet.value).take (4 - address.head.length)).length := by
      rw [whole, List.length_append, ← List.map_take, List.length_map]
      omega
    have room : 4 - address.head.length ≤ 8 - address.head.length - address.tail.length +
        (address.tail.map Hextet.value).length := by
      rw [List.length_map]
      omega
    have moved := moved_eq_iff gapped room
    rw [readWords, rest, whole, List.map_append, List.append_assoc, split, List.append_right_inj,
      List.map_take, moved, ← List.map_take, List.forall_mem_map]

/-! # Keys and networks -/

theorem hexValue_keyParts (address : Ipv6) :
    (keyParts address).map hexValue = readWords address := by
  rw [keyParts, readWords, List.map_append, List.map_map, List.map_replicate]
  congr 1
  exact List.map_congr_left fun hextet _ => hexValue_zfill hextet

theorem hexValue_network (address : Ipv6) :
    (address.network.map hexText).map hexValue = address.network := by
  rw [List.map_map]
  refine (List.map_congr_left fun word member => ?_).trans (List.map_id _)
  exact hexValue_hexText (Ipv6.word_lt (List.mem_of_mem_take member))

/-- The key is the network if and only if the address reads right. -/
theorem keyParts_eq_network_iff (address : Ipv6) :
    keyParts address = address.network.map hexText ↔ ReadsRight address := by
  have written : readWords address = address.network →
      (keyParts address = address.network.map hexText ↔
        ∀ hextet ∈ taken address, hextet.IsLower) := by
    intro reads
    rw [← reads, keyParts, readWords, List.map_append, List.map_replicate, List.append_left_inj,
      List.map_map, List.map_inj_left]
    exact forall₂_congr fun hextet _ => zfill_eq_hexText_iff hextet
  constructor
  · intro same
    have reads := congrArg (List.map hexValue) same
    rw [hexValue_keyParts, hexValue_network] at reads
    exact ⟨(readWords_eq_network_iff address).mp reads, (written reads).mp same⟩
  · rintro ⟨zeros, lower⟩
    exact (written ((readWords_eq_network_iff address).mpr zeros)).mpr lower

theorem readsRight_spelledOut (address : Ipv6) : ReadsRight address.spelledOut := by
  refine ⟨by simp [Ipv6.spelledOut, Ipv6.tail], fun hextet member => ?_⟩
  have written : hextet ∈ address.words.map Ipv6.hextetOf :=
    List.mem_of_mem_take (by simpa [taken, Ipv6.spelledOut, Ipv6.head, Ipv6.tail] using member)
  obtain ⟨word, _, rfl⟩ := List.mem_map.mp written
  exact Ipv6.hextetOf_isLower word

/-- An address is kept under its network, among all addresses that read right, if and only if it
reads right itself. -/
theorem networks_identified_iff (address : Ipv6) :
    (∀ other : Ipv6, ReadsRight other →
      (normalizeIp address.text = normalizeIp other.text ↔ address.network = other.network)) ↔
      ReadsRight address := by
  constructor
  · intro identified
    have network : address.network = address.spelledOut.network := by
      rw [Ipv6.network, Ipv6.network, address.words_spelledOut]
    have readsRight := readsRight_spelledOut address
    have keys := (normalizeIp_eq_iff _ _).mp ((identified _ readsRight).mpr network)
    rw [(keyParts_eq_network_iff _).mpr readsRight, ← network] at keys
    exact (keyParts_eq_network_iff address).mp keys
  · intro readsRight other otherRight
    rw [normalizeIp_eq_iff, (keyParts_eq_network_iff _).mpr readsRight,
      (keyParts_eq_network_iff _).mpr otherRight]
    constructor
    · intro same
      have values := congrArg (List.map hexValue) same
      rwa [hexValue_network, hexValue_network] at values
    · exact congrArg _

/-! Two spellings of one address, two networks, and two cases of one letter. -/

def writtenHextet (digits : List Char) (nonempty : digits ≠ []) (short : digits.length ≤ 4)
    (isHex : (digits.all fun digit => digit ∈ hexDigits) = true) : Hextet :=
  ⟨digits, nonempty, short, fun digit member =>
    of_decide_eq_true (List.all_eq_true.mp isHex digit member)⟩

def group2001 : Hextet := writtenHextet ['2', '0', '0', '1'] (by decide) (by decide) (by decide)

def groupDb8 : Hextet := writtenHextet ['d', 'b', '8'] (by decide) (by decide) (by decide)

def groupDB8 : Hextet := writtenHextet ['D', 'B', '8'] (by decide) (by decide) (by decide)

def group0 : Hextet := writtenHextet ['0'] (by decide) (by decide) (by decide)

def group1 : Hextet := writtenHextet ['1'] (by decide) (by decide) (by decide)

theorem networks_confused :
    (let short := Ipv6.compressed [group2001, groupDb8] [group1] (by decide)
     let long := Ipv6.full [group2001, groupDb8, group0, group0, group0, group0, group0, group1] rfl
     short.network = long.network ∧ normalizeIp short.text ≠ normalizeIp long.text) ∧
    (let here := Ipv6.compressed [group2001, groupDb8] [group1] (by decide)
     let there := Ipv6.compressed [group2001, groupDb8, group1] [] (by decide)
     here.network ≠ there.network ∧ normalizeIp here.text = normalizeIp there.text) ∧
    (let lower := Ipv6.compressed [group2001, groupDb8] [] (by decide)
     let upper := Ipv6.compressed [group2001, groupDB8] [] (by decide)
     lower.network = upper.network ∧ normalizeIp lower.text ≠ normalizeIp upper.text) := by
  decide +kernel

end PredictX.RateLimitService
