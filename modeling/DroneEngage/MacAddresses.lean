import DroneEngage.IntegerText
import Mathlib.Data.List.Forall2
import Mathlib.Data.Nat.Digits.Defs

/-!
# Hardware addresses as text

`formatMacAddress` prints the bytes of an address through a string stream,
`convertMacToBytes` reads a text that matches a regular expression, and
`convertMACToInteger` packs the octets of a text into an integer.
-/

namespace DroneEngage

open IntegerText

/-- The parts of a `std::stringstream` that printing uses. -/
structure OutStream where
  str : List Char
  width : Nat
  fill : Char
  base : Nat

namespace OutStream

def fresh : OutStream :=
  ⟨[], 0, ' ', 10⟩

def setw (stream : OutStream) (width : Nat) : OutStream :=
  { stream with width := width }

def setfill (stream : OutStream) (fill : Char) : OutStream :=
  { stream with fill := fill }

def hex (stream : OutStream) : OutStream :=
  { stream with base := 16 }

/-- `<<`: an item is filled up to the width, which holds for one item only. -/
def insert (stream : OutStream) (item : List Char) : OutStream :=
  { stream with
    str := stream.str ++ (List.replicate (stream.width - item.length) stream.fill ++ item)
    width := 0 }

def insertInt (stream : OutStream) (value : Nat) : OutStream :=
  stream.insert (Nat.toDigits stream.base value)

end OutStream

/-- `text.substr(pos, count)` -/
def substr (text : List Char) (pos count : Nat) : Except StringError (List Char) :=
  if pos ≤ text.length then .ok ((text.drop pos).take count) else .error .outOfRange

/-- One pass of the loop of `convertMACToInteger`. -/
def pushOctet (mac : List Char) (macNum : UInt64) (i : Nat) : Except StringError UInt64 := do
  let octet ← substr mac (i * 3) 2
  let value ← stoul 16 octet
  .ok (macNum <<< 8 ||| value)

def convertMACToInteger (mac : List Char) : Except StringError UInt64 :=
  (List.range 5).foldlM (pushOctet mac) 0

/-- One pass of the loop of `formatMacAddress`. -/
def printOctet (addColon : Bool) (bssid : OutStream) (octet : UInt8 × Nat) : OutStream :=
  let bssid := if addColon && 0 < octet.2 then bssid.insert [':'] else bssid
  bssid.insertInt octet.1.toNat

def formatMacAddress (macAddressBytes : List UInt8) (addColon : Bool) : List Char :=
  let bssid := ((OutStream.fresh.setw 2).setfill '0').hex
  (macAddressBytes.zipIdx.foldl (printOctet addColon) bssid).str

/-- `[a-fA-F0-9]` -/
def isHexClass (c : Char) : Bool :=
  ('a' ≤ c && c ≤ 'f') || ('A' ≤ c && c ≤ 'F') || ('0' ≤ c && c ≤ '9')

/-- `([a-fA-F0-9]{2})`, and as many times more with a colon in front, up to the end:
the groups of the match. -/
def matchOctets : Nat → List Char → Option (List (List Char))
  | more, a :: b :: rest =>
      if isHexClass a && isHexClass b then
        match more, rest with
        | 0, [] => some [[a, b]]
        | more + 1, ':' :: rest => (matchOctets more rest).map ([a, b] :: ·)
        | _, _ => none
      else none
  | _, _ => none

def convertMacToBytes (macAddress : List Char) : Except StringError (List UInt8) :=
  match matchOctets 5 macAddress with
  | none => .ok []
  | some groups => groups.mapM fun hex => do
      let value ← stoi 16 hex
      .ok (UInt8.ofInt value)

/-- A byte written with two hexadecimal digits. -/
structure OctetOf (octet : List Char) (byte : UInt8) : Prop where
  length : octet.length = 2
  digits : ∀ c ∈ octet, isDigitOf 16 c
  value : digitsValue 16 octet = byte.toNat

/-- A well-formed text denotes an address of six bytes. -/
def Denotes (mac : List Char) (address : List UInt8) : Prop :=
  address.length = 6 ∧
    ∃ octets, mac = [':'].intercalate octets ∧ List.Forall₂ OctetOf octets address

section Octets

/-- The class of the expression has the digits to the base 16. -/
theorem isHexClass_eq (c : Char) : isHexClass c = isDigitOf 16 c := by
  have order (d e : Char) : d ≤ e ↔ d.toNat ≤ e.toNat := Iff.rfl
  have digits : '0'.toNat = 48 ∧ '9'.toNat = 57 := ⟨rfl, rfl⟩
  have lower : 'a'.toNat = 97 ∧ 'f'.toNat = 102 ∧ 'z'.toNat = 122 := ⟨rfl, rfl, rfl⟩
  have upper : 'A'.toNat = 65 ∧ 'F'.toNat = 70 ∧ 'Z'.toNat = 90 := ⟨rfl, rfl, rfl⟩
  rw [Bool.eq_iff_iff]
  simp only [isHexClass, isDigitOf, digitValue, Bool.or_eq_true, Bool.and_eq_true,
    decide_eq_true_eq, order]
  split
  · omega
  · split
    · omega
    · split
      · omega
      · omega

theorem octet_toDigits (byte : UInt8) :
    (Nat.toDigits 16 byte.toNat).length ≤ 2 ∧
      (∀ c ∈ Nat.toDigits 16 byte.toNat, isDigitOf 16 c) ∧
      digitsValue 16 (Nat.toDigits 16 byte.toNat) = byte.toNat := by
  have small := byte.toNat_lt
  refine ⟨?_, fun c member => isDigitOf_of_mem_toDigits (by decide) (by decide) member,
    digitsValue_toDigits (by decide) (by decide) _⟩
  rw [Nat.length_toDigits_le_iff (by decide) (by decide)]
  omega

theorem OctetOf.printed {octet : List Char} {byte : UInt8} (octetOf : OctetOf octet byte) :
    octet ≠ [] ∧ octet.length ≤ 2 ∧ ∀ c ∈ octet, isDigitOf 16 c := by
  refine ⟨?_, Nat.le_of_eq octetOf.length, octetOf.digits⟩
  rintro rfl
  cases octetOf.length

/-- Printed without padding a byte has two digits from 16 on. -/
theorem octetOf_toDigits_iff (byte : UInt8) :
    OctetOf (Nat.toDigits 16 byte.toNat) byte ↔ 16 ≤ byte.toNat := by
  obtain ⟨length, digits, value⟩ := octet_toDigits byte
  have single := @Nat.length_toDigits_le_iff 16 byte.toNat 1 (by decide) (by decide)
  constructor
  · intro octet
    have two := octet.length
    omega
  · intro large
    exact ⟨by omega, digits, value⟩

/-- With `setw(2)` and `setfill('0')` every byte has two digits. -/
theorem octetOf_padded (byte : UInt8) :
    OctetOf (List.replicate (2 - (Nat.toDigits 16 byte.toNat).length) '0' ++
      Nat.toDigits 16 byte.toNat) byte := by
  obtain ⟨length, digits, value⟩ := octet_toDigits byte
  refine ⟨?_, ?_, (digitsValue_zeros _ _).trans value⟩
  · rw [List.length_append, List.length_replicate]
    omega
  · intro c member
    rcases List.mem_append.mp member with zero | digit
    · rw [List.eq_of_mem_replicate zero]
      rfl
    · exact digits c digit

end Octets

section Printing

theorem intercalate_cons_eq_flatMap {α : Type*} (separator : α) (first : List α)
    (rest : List (List α)) :
    [separator].intercalate (first :: rest) = first ++ rest.flatMap (separator :: ·) := by
  induction rest generalizing first with
  | nil => simp
  | cons next rest ih => simp [List.intercalate_cons_cons, ih]

/-- The width is used up by the first octet. -/
theorem printOctet_later {bssid : OutStream} (unpadded : bssid.width = 0)
    (hex : bssid.base = 16) (byte : UInt8) (i : Nat) :
    printOctet true bssid (byte, i + 1) =
      { bssid with str := bssid.str ++ ':' :: Nat.toDigits 16 byte.toNat } := by
  simp [printOctet, OutStream.insertInt, OutStream.insert, unpadded, hex]

theorem printOctets_later {bssid : OutStream} (unpadded : bssid.width = 0)
    (hex : bssid.base = 16) (bytes : List UInt8) (i : Nat) :
    ((bytes.zipIdx (i + 1)).foldl (printOctet true) bssid).str =
      bssid.str ++ bytes.flatMap fun byte => ':' :: Nat.toDigits 16 byte.toNat := by
  induction bytes generalizing bssid i with
  | nil => simp
  | cons byte bytes ih =>
      rw [List.zipIdx_cons, List.foldl_cons, printOctet_later unpadded hex,
        ih (by exact unpadded) (by exact hex)]
      simp

/-- Only the first octet is padded. -/
theorem formatMacAddress_cons (byte : UInt8) (bytes : List UInt8) :
    formatMacAddress (byte :: bytes) true =
      [':'].intercalate
        ((List.replicate (2 - (Nat.toDigits 16 byte.toNat).length) '0' ++
            Nat.toDigits 16 byte.toNat) ::
          bytes.map fun byte => Nat.toDigits 16 byte.toNat) := by
  unfold formatMacAddress
  dsimp only
  rw [List.zipIdx_cons, List.foldl_cons, printOctets_later rfl rfl, intercalate_cons_eq_flatMap,
    List.flatMap_map]
  rfl

end Printing

section Matching

theorem matchOctets_pair {a b : Char} (first : isDigitOf 16 a) (second : isDigitOf 16 b)
    (more : Nat) (text : List Char) :
    matchOctets (more + 1) (a :: b :: ':' :: text) =
      (matchOctets more text).map ([a, b] :: ·) := by
  simp [matchOctets, isHexClass_eq, first, second]

/-- One digit alone is no octet of the expression. -/
theorem matchOctets_short {a : Char} {text : List Char} (ends : text = [] ∨ text.head? = some ':')
    (more : Nat) : matchOctets more (a :: text) = none := by
  rcases ends with rfl | colon
  · cases more <;> rfl
  · obtain ⟨rest, rfl⟩ := List.head?_eq_some_iff.mp colon
    have other : isHexClass ':' = false := by decide
    unfold matchOctets
    simp [other]

theorem exists_chars {octet : List Char} (nonempty : octet ≠ []) (short : octet.length ≤ 2) :
    (∃ a, octet = [a]) ∨ ∃ a b, octet = [a, b] := by
  match octet with
  | [a] => exact .inl ⟨a, rfl⟩
  | [a, b] => exact .inr ⟨a, b, rfl⟩

/-- The expression matches where every octet has two digits. -/
theorem matchOctets_intercalate {first : List Char} {rest : List (List Char)}
    (digits : ∀ octet ∈ first :: rest,
      octet ≠ [] ∧ octet.length ≤ 2 ∧ ∀ c ∈ octet, isDigitOf 16 c) :
    matchOctets rest.length ([':'].intercalate (first :: rest)) =
      if ∀ octet ∈ first :: rest, octet.length = 2 then some (first :: rest) else none := by
  induction rest generalizing first with
  | nil =>
      obtain ⟨⟨nonempty, short, hex⟩, -⟩ := List.forall_mem_cons.mp digits
      rw [List.intercalate_singleton]
      rcases exists_chars nonempty short with ⟨a, rfl⟩ | ⟨a, b, rfl⟩
      · rw [matchOctets_short (.inl rfl), if_neg (by simp)]
      · simp [matchOctets, isHexClass_eq, hex a, hex b]
  | cons next rest ih =>
      obtain ⟨⟨nonempty, short, hex⟩, later⟩ := List.forall_mem_cons.mp digits
      rw [List.intercalate_cons_cons, List.length_cons]
      rcases exists_chars nonempty short with ⟨a, rfl⟩ | ⟨a, b, rfl⟩
      · rw [List.append_assoc, List.singleton_append, matchOctets_short (.inr rfl),
          if_neg (by simp)]
      · have matched := matchOctets_pair (hex a (by simp)) (hex b (by simp)) rest.length
          ([':'].intercalate (next :: rest))
        rw [ih later] at matched
        refine matched.trans ?_
        split
        · rename_i two
          have all : ∀ octet ∈ [a, b] :: next :: rest, octet.length = 2 :=
            List.forall_mem_cons.mpr ⟨rfl, two⟩
          rw [if_pos all, Option.map_some]
        · rename_i other
          rw [if_neg fun two => other (List.forall_mem_cons.mp two).2, Option.map_none]

theorem mapM_eq_ok {α β ε : Type} {read : α → Except ε β} {items : List α} {values : List β}
    (each : List.Forall₂ (fun item value => read item = .ok value) items values) :
    items.mapM read = .ok values := by
  induction each with
  | nil => rfl
  | cons first _ ih =>
      rw [List.mapM_cons, first, ih]
      rfl

theorem exists_octetOf {octets : List (List Char)} {bytes : List UInt8}
    (each : List.Forall₂ OctetOf octets bytes) :
    ∀ octet ∈ octets, ∃ byte, OctetOf octet byte := by
  induction each with
  | nil => nofun
  | cons first _ ih => exact List.forall_mem_cons.mpr ⟨⟨_, first⟩, ih⟩

theorem twoDigits {octets : List (List Char)} {bytes : List UInt8}
    (each : List.Forall₂ OctetOf octets bytes) : ∀ octet ∈ octets, octet.length = 2 := by
  intro octet member
  obtain ⟨byte, octetOf⟩ := exists_octetOf each octet member
  exact octetOf.length

/-- An octet is read as the byte that it denotes. -/
theorem stoi_octet {octet : List Char} {byte : UInt8} (denotes : OctetOf octet byte) :
    stoi 16 octet = .ok (byte.toNat : Int) := by
  have small := byte.toNat_lt
  have value := denotes.value
  have nonempty : octet ≠ [] := by
    rintro rfl
    cases denotes.length
  rw [stoi_digits nonempty (by decide) denotes.digits (by omega), value]

theorem ofInt_toNat (byte : UInt8) : UInt8.ofInt byte.toNat = byte := by
  have small := byte.toNat_lt
  have reduced : ((byte.toNat : Int) % 2 ^ 8).toNat = byte.toNat := by omega
  rw [UInt8.ofInt, reduced, UInt8.ofNat_toNat]

/-- A well-formed text is read as the address that it denotes. -/
theorem convertMacToBytes_of_denotes {mac : List Char} {address : List UInt8}
    (denotes : Denotes mac address) : convertMacToBytes mac = .ok address := by
  obtain ⟨six, octets, rfl, each⟩ := denotes
  have length := each.length_eq.trans six
  obtain ⟨first, rest, rfl⟩ := List.exists_cons_of_length_eq_add_one length
  have matched := @matchOctets_intercalate first rest fun octet member => by
    obtain ⟨byte, octetOf⟩ := exists_octetOf each octet member
    exact octetOf.printed
  have five : rest.length = 5 := Nat.succ.inj length
  rw [if_pos (twoDigits each), five] at matched
  unfold convertMacToBytes
  rw [matched]
  apply mapM_eq_ok
  refine each.imp fun octet byte octetOf => ?_
  rw [stoi_octet octetOf]
  exact congrArg Except.ok (ofInt_toNat byte)

/-- A match splits the text into octets of two digits. -/
theorem matchOctets_eq_some {more : Nat} {text : List Char} {groups : List (List Char)}
    (matched : matchOctets more text = some groups) :
    groups.length = more + 1 ∧ text = [':'].intercalate groups ∧
      ∀ octet ∈ groups, octet.length = 2 ∧ ∀ c ∈ octet, isDigitOf 16 c := by
  have pair {a b : Char} (hex : (isHexClass a && isHexClass b) = true) :
      [a, b].length = 2 ∧ ∀ c ∈ [a, b], isDigitOf 16 c := by
    rw [isHexClass_eq, isHexClass_eq, Bool.and_eq_true] at hex
    exact ⟨rfl, List.forall_mem_cons.mpr ⟨hex.1, List.forall_mem_singleton.mpr hex.2⟩⟩
  fun_induction matchOctets more text generalizing groups with
  | case1 a b hex =>
      obtain rfl := Option.some.inj matched
      exact ⟨rfl, by simp, List.forall_mem_singleton.mpr (pair hex)⟩
  | case2 a b hex more rest ih =>
      obtain ⟨later, found, rfl⟩ := Option.map_eq_some_iff.mp matched
      obtain ⟨length, rfl, digits⟩ := ih found
      obtain ⟨next, others, rfl⟩ := List.exists_cons_of_length_eq_add_one length
      refine ⟨congrArg Nat.succ length, ?_, List.forall_mem_cons.mpr ⟨pair hex, digits⟩⟩
      rw [List.intercalate_cons_cons]
      rfl
  | case3 | case4 | case5 => cases matched

/-- Two digits are below 256. -/
theorem octetOf_ofNat {octet : List Char} (two : octet.length = 2)
    (digits : ∀ c ∈ octet, isDigitOf 16 c) :
    OctetOf octet (UInt8.ofNat (digitsValue 16 octet)) := by
  refine ⟨two, digits, ?_⟩
  obtain ⟨a, b, rfl⟩ := List.length_eq_two.mp two
  have high : digitValue a < 16 := of_decide_eq_true (digits a (by simp))
  have low : digitValue b < 16 := of_decide_eq_true (digits b (by simp))
  have value : digitsValue 16 [a, b] = 16 * digitValue a + digitValue b := by
    simp [digitsValue]
  rw [value]
  exact (UInt8.toNat_ofNat_of_lt' (show _ < 256 by omega)).symm

/-- The texts that are read are the well-formed ones. -/
theorem denotes_iff {mac : List Char} {address : List UInt8} :
    Denotes mac address ↔ convertMacToBytes mac = .ok address ∧ address ≠ [] := by
  constructor
  · intro denotes
    refine ⟨convertMacToBytes_of_denotes denotes, ?_⟩
    rintro rfl
    cases denotes.1
  · rintro ⟨read, nonempty⟩
    cases matched : matchOctets 5 mac with
    | none =>
        rw [convertMacToBytes, matched] at read
        exact absurd (Except.ok.inj read).symm nonempty
    | some groups =>
        obtain ⟨length, text, digits⟩ := matchOctets_eq_some matched
        have denotes :
            Denotes mac (groups.map fun octet => UInt8.ofNat (digitsValue 16 octet)) := by
          refine ⟨by rw [List.length_map, length], groups, text, ?_⟩
          rw [List.forall₂_map_right_iff, List.forall₂_same]
          exact fun octet member => octetOf_ofNat (digits octet member).1 (digits octet member).2
        rw [convertMacToBytes_of_denotes denotes] at read
        rwa [← Except.ok.inj read]

end Matching

section Packing

/-- The number that bytes are the digits of, the first the highest. -/
def bytesValue (bytes : List UInt8) : Nat :=
  Nat.ofDigits 256 (bytes.map UInt8.toNat).reverse

theorem bytesValue_append (bytes : List UInt8) (byte : UInt8) :
    bytesValue (bytes ++ [byte]) = 256 * bytesValue bytes + byte.toNat := by
  simp [bytesValue, Nat.ofDigits_cons, Nat.add_comm]

theorem toNat_lt_of_mem {bytes : List UInt8} :
    ∀ digit ∈ (bytes.map UInt8.toNat).reverse, digit < 256 := by
  intro digit member
  obtain ⟨byte, -, rfl⟩ := List.mem_map.mp (List.mem_reverse.mp member)
  exact byte.toNat_lt

theorem bytesValue_lt (bytes : List UInt8) : bytesValue bytes < 256 ^ bytes.length := by
  have bound := @Nat.ofDigits_lt_base_pow_length 256 _ (by decide) (@toNat_lt_of_mem bytes)
  rwa [List.length_reverse, List.length_map] at bound

theorem bytesValue_injective {first second : List UInt8} (same : first.length = second.length)
    (value : bytesValue first = bytesValue second) : first = second := by
  have digits := Nat.ofDigits_inj_of_len_eq (by decide) (by simp [same])
    (@toNat_lt_of_mem first) (@toNat_lt_of_mem second) value
  have numbers := List.reverse_injective digits
  exact List.map_injective_iff.mpr (fun _ _ => UInt8.toNat_inj.mp) numbers

theorem substr_append (front text : List Char) (pos count : Nat) :
    substr (front ++ text) (front.length + pos) count = substr text pos count := by
  have fits : front.length + pos ≤ (front ++ text).length ↔ pos ≤ text.length := by
    rw [List.length_append]
    omega
  unfold substr
  rw [List.drop_length_add_append, if_congr fits rfl rfl]

/-- Every third character an octet begins. -/
theorem substr_intercalate {octets : List (List Char)}
    (two : ∀ octet ∈ octets, octet.length = 2) {i : Nat} {octet : List Char}
    (found : octets[i]? = some octet) :
    substr ([':'].intercalate octets) (i * 3) 2 = .ok octet := by
  induction octets generalizing i with
  | nil => cases found
  | cons first rest ih =>
      obtain ⟨firstTwo, laterTwo⟩ := List.forall_mem_cons.mp two
      cases i with
      | zero =>
          obtain rfl := Option.some.inj found
          rw [intercalate_cons_eq_flatMap]
          simp [substr, ← firstTwo]
      | succ i =>
          cases rest with
          | nil => cases found
          | cons next rest =>
              have three : (i + 1) * 3 = (first ++ [':']).length + i * 3 := by
                rw [List.length_append, firstTwo, List.length_singleton]
                omega
              rw [List.intercalate_cons_cons, three, substr_append]
              exact ih laterTwo found

/-- An octet pushed in from the right is the next digit to the base 256. -/
theorem toNat_shiftLeft_or_octet {macNum value : UInt64} (small : macNum.toNat < 2 ^ 56)
    (octet : value.toNat < 2 ^ 8) :
    (macNum <<< 8 ||| value).toNat = 256 * macNum.toNat + value.toNat := by
  have shifted : (macNum <<< 8).toNat = 2 ^ 8 * macNum.toNat := by
    have eight : (8 : UInt64).toNat % 64 = 8 := rfl
    rw [UInt64.toNat_shiftLeft, eight, Nat.shiftLeft_eq, Nat.mod_eq_of_lt (by omega),
      Nat.mul_comm]
  rw [UInt64.toNat_or, shifted, ← Nat.two_pow_add_eq_or_of_lt octet]

variable {octets : List (List Char)} {address : List UInt8}

theorem bytesValue_take_lt (bytes : List UInt8) {k : Nat} (fits : k ≤ 7) :
    bytesValue (bytes.take k) < 2 ^ 56 := by
  have length : (bytes.take k).length ≤ 7 := Nat.le_trans (List.length_take_le k bytes) fits
  calc
    bytesValue (bytes.take k) < 256 ^ (bytes.take k).length := bytesValue_lt _
    _ ≤ 256 ^ 7 := Nat.pow_le_pow_right (by decide) length
    _ = 2 ^ 56 := by decide

/-- A pass of the loop takes in the octet at its place. -/
theorem pushOctet_intercalate (each : List.Forall₂ OctetOf octets address) {k : Nat}
    (inside : k < address.length) (fits : k ≤ 7) :
    pushOctet ([':'].intercalate octets) (UInt64.ofNat (bytesValue (address.take k))) k =
      .ok (UInt64.ofNat (bytesValue (address.take (k + 1)))) := by
  have insideOctets : k < octets.length := by rwa [each.length_eq]
  have octetOf : OctetOf octets[k] address[k] := each.get insideOctets inside
  have read := substr_intercalate (twoDigits each) (List.getElem?_eq_getElem insideOctets)
  have byteSmall := (address[k]).toNat_lt
  have parsed : stoul 16 octets[k] = .ok (UInt64.ofNat address[k].toNat) := by
    have nonempty : octets[k] ≠ [] := List.ne_nil_of_length_pos (by rw [octetOf.length]; decide)
    rw [stoul_digits nonempty (by decide) octetOf.digits (by rw [octetOf.value]; omega),
      octetOf.value]
  have bound := bytesValue_take_lt address fits
  have toNat_ofNat {n : Nat} (small : n < 2 ^ 64) : (UInt64.ofNat n).toNat = n :=
    UInt64.toNat_ofNat_of_lt' small
  have byte := @toNat_ofNat address[k].toNat (by omega)
  have packed := @toNat_ofNat (bytesValue (address.take k)) (by omega)
  have longer : address.take (k + 1) = address.take k ++ [address[k]] :=
    (List.take_append_getElem inside).symm
  have pushed : UInt64.ofNat (bytesValue (address.take k)) <<< 8 |||
      UInt64.ofNat address[k].toNat = UInt64.ofNat (bytesValue (address.take (k + 1))) := by
    apply UInt64.toNat_inj.mp
    rw [toNat_shiftLeft_or_octet (by omega) (by omega), byte, packed, longer, bytesValue_append,
      toNat_ofNat (by omega)]
  unfold pushOctet
  rw [read]
  change (stoul 16 octets[k] >>= fun _ => _) = _
  rw [parsed]
  exact congrArg Except.ok pushed

/-- What the loop has packed after some octets. -/
theorem foldlM_pushOctet (each : List.Forall₂ OctetOf octets address) {k : Nat}
    (inside : k ≤ address.length) (fits : k ≤ 8) :
    (List.range k).foldlM (pushOctet ([':'].intercalate octets)) 0 =
      .ok (UInt64.ofNat (bytesValue (address.take k))) := by
  induction k with
  | zero => rfl
  | succ k ih =>
      rw [List.range_succ, List.foldlM_append, ih (by omega) (by omega)]
      exact (bind_pure _).trans (pushOctet_intercalate each inside (by omega))

/-- Of a well-formed text the first five octets are packed. -/
theorem convertMACToInteger_of_denotes {mac : List Char} (denotes : Denotes mac address) :
    convertMACToInteger mac = .ok (UInt64.ofNat (bytesValue (address.take 5))) := by
  obtain ⟨six, octets, rfl, each⟩ := denotes
  exact foldlM_pushOctet each (by omega) (by decide)

end Packing

section Lossless

/-- Where every later octet takes two digits, what is printed denotes the address. -/
theorem denotes_formatMacAddress {address : List UInt8} (six : address.length = 6)
    (large : ∀ byte ∈ address.tail, 16 ≤ byte.toNat) :
    Denotes (formatMacAddress address true) address := by
  obtain ⟨first, rest, rfl⟩ := List.exists_cons_of_length_eq_add_one six
  rw [formatMacAddress_cons]
  refine ⟨six, _, rfl, .cons (octetOf_padded first) ?_⟩
  rw [List.forall₂_map_left_iff, List.forall₂_same]
  exact fun byte member => (octetOf_toDigits_iff byte).mpr (large byte member)

/-- Printed and read again an address is itself unless an octet after the first is
below 16, which is printed with one digit. -/
theorem roundTrip_iff {address : List UInt8} (six : address.length = 6) :
    convertMacToBytes (formatMacAddress address true) = .ok address ↔
      ∀ byte ∈ address.tail, 16 ≤ byte.toNat := by
  refine ⟨fun same => ?_, fun large =>
    convertMacToBytes_of_denotes (denotes_formatMacAddress six large)⟩
  obtain ⟨first, rest, rfl⟩ := List.exists_cons_of_length_eq_add_one six
  rw [formatMacAddress_cons] at same
  rw [List.tail_cons]
  by_contra short
  have five : (rest.map fun byte => Nat.toDigits 16 byte.toNat).length = 5 := by
    rw [List.length_map]
    exact Nat.succ.inj six
  have matched := @matchOctets_intercalate _ (rest.map fun byte => Nat.toDigits 16 byte.toNat)
    (List.forall_mem_cons.mpr ⟨(octetOf_padded first).printed, fun octet member => by
      obtain ⟨byte, -, rfl⟩ := List.mem_map.mp member
      obtain ⟨length, digits, -⟩ := octet_toDigits byte
      exact ⟨Nat.toDigits_ne_nil, length, digits⟩⟩)
  rw [if_neg, five] at matched
  · unfold convertMacToBytes at same
    rw [matched] at same
    cases same
  · intro two
    refine short fun byte member => ?_
    obtain ⟨-, digits, value⟩ := octet_toDigits byte
    have length := two _ (List.mem_cons_of_mem _ (List.mem_map_of_mem member))
    exact (octetOf_toDigits_iff byte).mp ⟨length, digits, value⟩

/-- Only the last octet of an address may differ between texts of one integer. -/
theorem convertMACToInteger_eq_iff {first second : List Char} {address other : List UInt8}
    (firstDenotes : Denotes first address) (secondDenotes : Denotes second other) :
    convertMACToInteger first = convertMACToInteger second ↔ address.take 5 = other.take 5 := by
  rw [convertMACToInteger_of_denotes firstDenotes, convertMACToInteger_of_denotes secondDenotes]
  constructor
  · intro same
    have numbers := congrArg UInt64.toNat (Except.ok.inj same)
    have small := bytesValue_take_lt address (show 5 ≤ 7 by decide)
    have otherSmall := bytesValue_take_lt other (show 5 ≤ 7 by decide)
    rw [UInt64.toNat_ofNat', UInt64.toNat_ofNat', Nat.mod_eq_of_lt (by omega),
      Nat.mod_eq_of_lt (by omega)] at numbers
    apply bytesValue_injective _ numbers
    rw [List.length_take, List.length_take, firstDenotes.1, secondDenotes.1]
  · intro same
    rw [same]

/-- What the conversions lose: the padding of the later octets, and the last octet. -/
theorem macConversions_lossless_iff {address : List UInt8} (six : address.length = 6)
    {first second : List Char} {firstAddress secondAddress : List UInt8}
    (firstDenotes : Denotes first firstAddress) (secondDenotes : Denotes second secondAddress) :
    (convertMacToBytes (formatMacAddress address true) = .ok address ↔
        ∀ byte ∈ address.tail, 16 ≤ byte.toNat) ∧
      (convertMACToInteger first ≠ convertMACToInteger second ↔
        firstAddress.take 5 ≠ secondAddress.take 5) :=
  ⟨roundTrip_iff six, not_congr (convertMACToInteger_eq_iff firstDenotes secondDenotes)⟩

/-- An address that comes back, and two with different integers. -/
theorem macConversions_lossless_iff_printed :
    convertMacToBytes (formatMacAddress [0, 17, 34, 51, 68, 85] true) =
        .ok [0, 17, 34, 51, 68, 85] ∧
      convertMACToInteger (formatMacAddress [0, 17, 34, 51, 68, 85] true) ≠
        convertMACToInteger (formatMacAddress [1, 17, 34, 51, 68, 85] true) := by
  have large (first : UInt8) :
      ∀ byte ∈ [first, 17, 34, 51, 68, 85].tail, 16 ≤ byte.toNat := by simp
  have denotes (first : UInt8) := denotes_formatMacAddress rfl (large first)
  have lossless := @macConversions_lossless_iff [0, 17, 34, 51, 68, 85] rfl _ _ _ _
    (denotes 0) (denotes 1)
  exact ⟨lossless.1.mpr (large 0), lossless.2.mpr (by decide)⟩

/-- `00:1:2:3:4:5` is not read, and the last octet is not packed. -/
theorem macConversions_lossless_fails :
    (¬ ∀ address : List UInt8, address.length = 6 →
        convertMacToBytes (formatMacAddress address true) = .ok address) ∧
      ¬ ∀ first second address other, Denotes first address → Denotes second other →
        address ≠ other → convertMACToInteger first ≠ convertMACToInteger second := by
  constructor
  · intro always
    have same := always [0, 1, 2, 3, 4, 5] rfl
    rw [roundTrip_iff rfl] at same
    exact absurd (same 1 (by simp)) (by decide)
  · intro always
    have denotes (last : UInt8) (large : 16 ≤ last.toNat) :
        Denotes (formatMacAddress [0, 17, 34, 51, 68, last] true) [0, 17, 34, 51, 68, last] :=
      denotes_formatMacAddress rfl (by simpa using large)
    have apart := always _ _ _ _ (denotes 85 (by decide)) (denotes 86 (by decide)) (by decide)
    exact apart ((convertMACToInteger_eq_iff (denotes 85 (by decide))
      (denotes 86 (by decide))).mpr rfl)

end Lossless

end DroneEngage
