import Mathlib.Tactic.IntervalCases
import CampusID.Lib.Dict
import CampusID.Mfa.Cbor

/-!
# CBOR is read as it is written

`encode` writes a value in the shortest form.  `Fits levels` are the values `_item` returns with
that many levels left: numbers and lengths have at most eight bytes, keys of a map differ, and no
value is inside as many as `levels` others.

`reads_item` says that `_item` returns exactly the values that fit and stand encoded at its offset.
So a value is read back from its encoding whatever follows, and the bytes of a value can differ in
the order of map entries only (`decode_canonical`).
-/

namespace CampusID
namespace Mfa

open Lib Lib.Readers Lib.Positional Lib.Eff

namespace Cbor

/-! ## The encoding -/

/-- The additional information an argument is written with. -/
def additional (n : Nat) : Nat :=
  if n < 24 then n
  else if n < 2 ^ 8 then 24
  else if n < 2 ^ 16 then 25
  else if n < 2 ^ 32 then 26
  else 27

/-- The number of bytes that follow the first one. -/
def width : (minor : Nat) → Nat
  | 24 => 1
  | 25 => 2
  | 26 => 4
  | 27 => 8
  | _ => 0

/-- A major type and an argument, in the shortest form. -/
def head (major n : Nat) : List UInt8 :=
  UInt8.ofNat (major * 32 + additional n) :: toBigEndian (width (additional n)) n

/-- The major type of a value. -/
def major : Cbor → Nat
  | int n => if 0 ≤ n then 0 else 1
  | bytes _ => 2
  | text _ => 3
  | array _ => 4
  | map _ => 5
  | bool _ | null => 7

/-- The argument of a value. -/
def arg : Cbor → Nat
  | int n => if 0 ≤ n then n.toNat else (-1 - n).toNat
  | bytes data => data.length
  | text s => (octets s).length
  | array items => items.length
  | map entries => entries.length
  | bool false => 20
  | bool true => 21
  | null => 22

/-- The encoding of a key. -/
def encodeKey : Key → List UInt8
  | .int n => head (int n).major (int n).arg
  | .bytes data => head 2 data.length ++ data
  | .text s => head 3 (octets s).length ++ octets s
  | .bool b => head 7 (bool b).arg

mutual

/-- The encoding of a value. -/
def encode : Cbor → List UInt8
  | int n => encodeKey (.int n)
  | bytes data => encodeKey (.bytes data)
  | text s => encodeKey (.text s)
  | array items => head 4 items.length ++ encodeItems items
  | map entries => head 5 entries.length ++ encodeEntries entries
  | bool b => encodeKey (.bool b)
  | null => head 7 22

/-- The items of an array. -/
def encodeItems : List Cbor → List UInt8
  | [] => []
  | v :: vs => encode v ++ encodeItems vs

/-- The entries of a map. -/
def encodeEntries : List (Key × Cbor) → List UInt8
  | [] => []
  | (key, v) :: entries => encodeKey key ++ encode v ++ encodeEntries entries

end

/-- What a value needs beside what its parts need. -/
def WellMade (P : Cbor → Prop) : Cbor → Prop
  | int n => -2 ^ 64 ≤ n ∧ n < 2 ^ 64
  | bytes data => data.length < 2 ^ 64
  | text s => (octets s).length < 2 ^ 64
  | array items => items.length < 2 ^ 64 ∧ ∀ v ∈ items, P v
  | map entries => entries.length < 2 ^ 64 ∧ (entries.map (·.1.norm)).Nodup ∧
      ∀ entry ∈ entries, P entry.1.value ∧ P entry.2
  | bool _ | null => True

/-- Numbers and lengths have at most eight bytes, keys differ, and at most `levels` values are
inside one another, this one and the innermost among them. -/
def Fits : (levels : Nat) → Cbor → Prop
  | 0, _ => False
  | levels + 1, v => v.WellMade (Fits levels)

mutual

/-- Two values are equal, a boolean and an integer never. -/
def eq : Cbor → Cbor → Bool
  | int m, int n => m == n
  | bytes a, bytes b => a == b
  | text s, text t => s == t
  | array vs, array ws => eqItems vs ws
  | map es, map fs => es.length == fs.length && eqEntries es fs
  | bool a, bool b => a == b
  | null, null => true
  | _, _ => false

/-- Two arrays are equal, item by item. -/
def eqItems : List Cbor → List Cbor → Bool
  | [], [] => true
  | v :: vs, w :: ws => eq v w && eqItems vs ws
  | _, _ => false

/-- The other map has each key, with an equal value. -/
def eqEntries : List (Key × Cbor) → List (Key × Cbor) → Bool
  | [], _ => true
  | (key, v) :: es, fs =>
    (match fs.lookup key with
    | some w => eq v w
    | none => false) && eqEntries es fs

end

/-- One value is the other with the entries of maps in it in another order. -/
inductive Reordered : Cbor → Cbor → Prop
  | refl (v : Cbor) : Reordered v v
  | trans {u v w : Cbor} : Reordered u v → Reordered v w → Reordered u w
  | entries {es fs : List (Key × Cbor)} : es.Perm fs → Reordered (map es) (map fs)
  | item {v w : Cbor} (vs ws : List Cbor) : Reordered v w →
      Reordered (array (vs ++ v :: ws)) (array (vs ++ w :: ws))
  | entry {v w : Cbor} (key : Key) (es fs : List (Key × Cbor)) : Reordered v w →
      Reordered (map (es ++ (key, v) :: fs)) (map (es ++ (key, w) :: fs))

/-! ## Arguments -/

variable {data piece : List UInt8} {i j n levels count : Nat} {minor : Nat}

theorem additional_of_lt (h : n < 24) : additional n = n := if_pos h

theorem take_eq_ok {length : Nat} : take data i length = .ok piece ↔
    Stands data i piece (i + length) ∧ i + length ≤ data.length := by
  unfold take
  split_ifs with hlt
  · exact iff_of_false nofun fun h => absurd h.2 (by omega)
  · rw [Except.ok.injEq, and_iff_left (by omega)]
    constructor
    · rintro rfl
      exact (stands_take (by omega)).mpr rfl
    · intro h
      exact ((stands_take (by omega)).mpr rfl).unique h

theorem shortest_eq_ok {u : Unit} : shortest n minor = .ok u ↔ minimum minor ≤ n := by
  unfold shortest
  split_ifs with hlt
  · exact iff_of_false nofun (by omega)
  · exact iff_of_true rfl (by omega)

theorem wide_eq_ok {w : Nat} (hw : 0 < w) : wide data i w minor = .ok (n, j) ↔
    minimum minor ≤ n ∧ n < 256 ^ w ∧ Stands data (i + 1) (toBigEndian w n) j := by
  simp only [wide, except_bind_eq_ok, take_eq_ok, shortest_eq_ok, unpack]
  constructor
  · rintro ⟨chunk, ⟨hstands, -⟩, value, hvalue, -, hmin, hdone⟩
    split_ifs at hvalue with hlength
    obtain rfl := Except.ok.inj hvalue
    obtain ⟨rfl, rfl⟩ := Prod.mk.inj (Except.ok.inj hdone)
    subst hlength
    rw [toBigEndian_bigEndian]
    exact ⟨hmin, bigEndian_lt chunk, hstands⟩
  · rintro ⟨hmin, hlt, hstands⟩
    have hend : j = i + 1 + w := by rw [hstands.2, length_toBigEndian]
    subst hend
    refine ⟨_, ⟨hstands, ?_⟩, n, ?_, (), hmin, rfl⟩
    · have hlength := hstands.1.length_le
      rw [length_toBigEndian, List.length_drop] at hlength
      omega
    · rw [if_pos (length_toBigEndian ..), bigEndian_toBigEndian hlt]

theorem byte_eq_wide (data : List UInt8) (i : Nat) : (do
    let value ← byteAt (← take data (i + 1) 1) 0
    shortest value.toNat 24
    return (value.toNat, i + 2)) = wide data i 1 24 := by
  unfold wide take
  split_ifs with hlt
  · rfl
  · have hlength : ((data.drop (i + 1)).take 1).length = 1 := by
      rw [List.length_take, List.length_drop]
      omega
    obtain ⟨byte, hbyte⟩ := List.length_eq_one_iff.mp hlength
    have hunpack : unpack 1 [byte] = .ok byte.toNat := by
      rw [unpack, if_pos List.length_singleton, bigEndian_singleton]
    rw [hbyte]
    change _ = do
      let value ← unpack 1 [byte]
      shortest value 24
      return (value, i + 1 + 1)
    rw [hunpack]
    rfl

theorem argument_of_lt (h : minor < 24) : argument data i minor = .ok (minor, i + 1) := if_pos h

theorem argument_eq_wide (h : 24 ≤ minor) (h' : minor ≤ 27) :
    argument data i minor = wide data i (width minor) minor := by
  interval_cases minor
  · exact byte_eq_wide data i
  · rfl
  · rfl
  · rfl

theorem width_of_lt (h : minor < 24) : width minor = 0 := by
  unfold width
  split <;> omega

theorem minimum_le_iff (h : 24 ≤ minor) (h' : minor ≤ 27) :
    minimum minor ≤ n ∧ n < 256 ^ width minor ↔ minor = additional n ∧ n < 2 ^ 64 := by
  unfold additional
  interval_cases minor <;> simp only [minimum, width] <;> split_ifs <;> omega

theorem additional_le (n : Nat) : additional n ≤ 27 := by
  unfold additional
  split_ifs <;> omega

theorem eq_of_additional (h : additional n < 24) : n = additional n := by
  unfold additional at h ⊢
  split_ifs at h ⊢ <;> omega

/-- **An argument is read where it stands in its shortest form.** -/
theorem argument_eq_ok : argument data i minor = .ok (n, j) ↔
    minor = additional n ∧ n < 2 ^ 64 ∧ Stands data (i + 1) (toBigEndian (width minor) n) j := by
  rcases Nat.lt_or_ge minor 24 with hlt | hge
  · rw [argument_of_lt hlt, width_of_lt hlt]
    constructor
    · rintro ⟨⟩
      exact ⟨(additional_of_lt hlt).symm, by omega, stands_nil.mpr rfl⟩
    · rintro ⟨rfl, -, hstands⟩
      rw [← eq_of_additional hlt, stands_nil.mp hstands]
  rcases Nat.lt_or_ge 27 minor with hlt' | hle
  · refine iff_of_false ?_ fun h => absurd (additional_le n) (by omega)
    unfold argument
    split_ifs <;> first | omega | exact nofun
  · have hwidth : 0 < width minor := by interval_cases minor <;> decide
    rw [argument_eq_wide hge hle, wide_eq_ok hwidth, ← and_assoc, minimum_le_iff hge hle, and_assoc]

/-! ## Items -/

/-- What follows the argument of a value. -/
def content : Cbor → List UInt8
  | bytes data => data
  | text s => octets s
  | array items => items.flatMap encode
  | map entries => entries.flatMap fun entry => encodeKey entry.1 ++ encode entry.2
  | int _ | bool _ | null => []

theorem encodeItems_eq (vs : List Cbor) : encodeItems vs = vs.flatMap encode := by
  induction vs with
  | nil => rfl
  | cons v vs ih => rw [encodeItems, ih, List.flatMap_cons]

theorem encodeEntries_eq (entries : List (Key × Cbor)) :
    encodeEntries entries = entries.flatMap fun entry => encodeKey entry.1 ++ encode entry.2 := by
  induction entries with
  | nil => rfl
  | cons entry entries ih => rw [encodeEntries, ih, List.flatMap_cons]

theorem encode_value (key : Key) : encode key.value = encodeKey key := by cases key <;> rfl

theorem encode_eq (v : Cbor) : encode v = head v.major v.arg ++ v.content := by
  cases v with
  | int n => exact (List.append_nil _).symm
  | bytes data => rfl
  | text s => rfl
  | array items => rw [encode, encodeItems_eq]; rfl
  | map entries => rw [encode, encodeEntries_eq]; rfl
  | bool b => exact (List.append_nil _).symm
  | null => exact (List.append_nil _).symm

theorem major_lt (v : Cbor) : v.major < 8 := by
  cases v <;> simp only [major]
  any_goals decide
  split_ifs <;> decide

theorem stands_head {m : Nat} (hm : m < 8) (hn : n < 2 ^ 64) : Stands data i (head m n) j ↔
    ∃ initial, data[i]? = some initial ∧ initial.toNat >>> 5 = m ∧
      argument data i (initial.toNat &&& 0x1F) = .ok (n, j) := by
  have hadd := additional_le n
  have hshift : ∀ k : Nat, k >>> 5 = k / 32 := fun k => Nat.shiftRight_eq_div_pow k 5
  have hand : ∀ k : Nat, k &&& 0x1F = k % 32 := fun k => Nat.and_two_pow_sub_one_eq_mod k 5
  rw [head, stands_cons]
  simp only [argument_eq_ok, hshift, hand]
  constructor
  · rintro ⟨hfirst, hstands⟩
    have hbyte : (UInt8.ofNat (m * 32 + additional n)).toNat = m * 32 + additional n :=
      UInt8.toNat_ofNat_of_lt' (by simp only [UInt8.size]; omega)
    have hmod : (m * 32 + additional n) % 32 = additional n := by omega
    refine ⟨_, hfirst, ?_, ?_, hn, ?_⟩
    · rw [hbyte]
      omega
    · rw [hbyte, hmod]
    · rwa [hbyte, hmod]
  · rintro ⟨initial, hinitial, rfl, hminor, -, hstands⟩
    rw [hminor] at hstands
    refine ⟨?_, hstands⟩
    rw [hinitial, ← hminor, Nat.mul_comm, Nat.div_add_mod, UInt8.ofNat_toNat]

/-! ## Maps -/

variable {read : Nat → Except Raised (Cbor × Nat)} {P : Cbor → Prop} {v w : Cbor} {key : Key}
  {mapping entries : List (Key × Cbor)}

theorem mapKey_eq_ok : mapKey v = .ok key ↔ v = key.value := by
  constructor
  · intro h
    cases v <;> cases h <;> rfl
  · rintro rfl
    cases key <;> rfl

theorem readEntries_eq_ok (h : Reads data read P encode)
    (hnodup : (mapping.map (·.1.norm)).Nodup) :
    readEntries read count mapping i = .ok (entries, j) ↔
      ∃ new, entries = mapping ++ new ∧ new.length = count ∧
        (entries.map (·.1.norm)).Nodup ∧ (∀ entry ∈ new, P entry.1.value ∧ P entry.2) ∧
        Stands data i (new.flatMap fun entry => encodeKey entry.1 ++ encode entry.2) j := by
  induction count generalizing mapping i with
  | zero =>
    constructor
    · rintro ⟨⟩
      exact ⟨[], (List.append_nil _).symm, rfl, hnodup, nofun, stands_nil.mpr rfl⟩
    · rintro ⟨new, rfl, hcount, -, -, hstands⟩
      obtain rfl := List.length_eq_zero_iff.mp hcount
      rw [stands_nil.mp hstands, List.append_nil]
      rfl
  | succ count ih =>
    have hsnoc : ∀ (key : Key) (v : Cbor), ((mapping ++ [(key, v)]).map (·.1.norm)).Nodup ↔
        key.norm ∉ mapping.map (·.1.norm) := by
      intro key v
      rw [List.map_append, List.map_singleton, List.nodup_append_comm, List.singleton_append,
        List.nodup_cons]
      exact and_iff_left hnodup
    simp only [readEntries, except_bind_eq_ok, mapKey_eq_ok]
    constructor
    · rintro ⟨⟨_, k⟩, hkey, key, rfl, hrest⟩
      split_ifs at hrest with hdup
      · exact nomatch hrest
      obtain ⟨⟨v, k'⟩, hv, hrest⟩ := except_bind_eq_ok.mp hrest
      obtain ⟨new, rfl, hcount, hnodup', hall, hstands⟩ := (ih ((hsnoc key v).mpr hdup)).mp hrest
      obtain ⟨hPkey, hkey⟩ := (h ..).mp hkey
      obtain ⟨hPv, hv⟩ := (h ..).mp hv
      rw [encode_value] at hkey
      refine ⟨(key, v) :: new, List.append_assoc .., congrArg (· + 1) hcount, hnodup',
        List.forall_mem_cons.mpr ⟨⟨hPkey, hPv⟩, hall⟩, ?_⟩
      rw [List.flatMap_cons]
      exact stands_append.mpr ⟨k', stands_append.mpr ⟨k, hkey, hv⟩, hstands⟩
    · rintro ⟨new, rfl, hcount, hnodup', hall, hstands⟩
      cases new with
      | nil => exact absurd hcount (Nat.zero_ne_add_one count)
      | cons entry new =>
        obtain ⟨key, v⟩ := entry
        obtain ⟨⟨hPkey, hPv⟩, hall⟩ := List.forall_mem_cons.mp hall
        obtain ⟨k', hentry, hstands⟩ := stands_append.mp hstands
        obtain ⟨k, hkey, hv⟩ := stands_append.mp hentry
        rw [← encode_value] at hkey
        have hsplit := List.append_cons mapping (key, v) new
        have hdup : key.norm ∉ mapping.map (·.1.norm) := by
          rw [hsplit] at hnodup'
          exact (hsnoc key v).mp (hnodup'.sublist ((List.sublist_append_left ..).map _))
        refine ⟨(key.value, k), (h ..).mpr ⟨hPkey, hkey⟩, key, rfl, ?_⟩
        rw [if_neg hdup]
        refine except_bind_eq_ok.mpr ⟨(v, k'), (h ..).mpr ⟨hPv, hv⟩, ?_⟩
        exact (ih ((hsnoc key v).mpr hdup)).mpr
          ⟨new, hsplit, Nat.succ.inj hcount, hnodup', hall, hstands⟩

theorem readEntries_nil_eq_ok (h : Reads data read P encode) :
    readEntries read count [] i = .ok (entries, j) ↔ entries.length = count ∧
      (entries.map (·.1.norm)).Nodup ∧ (∀ entry ∈ entries, P entry.1.value ∧ P entry.2) ∧
      Stands data i (entries.flatMap fun entry => encodeKey entry.1 ++ encode entry.2) j := by
  have hnil : (([] : List (Key × Cbor)).map (·.1.norm)).Nodup := List.nodup_nil
  rw [readEntries_eq_ok h hnil]
  simp only [List.nil_append, exists_eq_left']

/-! ## Values -/

theorem number_spec {P : Cbor → Prop} {m value : Nat} (hm : m = 0 ∨ m = 1) (hlt : value < 2 ^ 64) :
    (int (if m = 0 then value else -1 - value)).arg = value ∧
      (int (if m = 0 then value else -1 - value)).major = m ∧
      (int (if m = 0 then value else -1 - value)).WellMade P := by
  simp only [arg, major, WellMade]
  rcases hm with rfl | rfl
  · simp only [if_true]
    split_ifs <;> omega
  · simp only [Nat.one_ne_zero, if_false]
    split_ifs <;> omega

theorem dispatch_sound (h : Reads data read P encode) {m : Nat}
    (hrun : dispatch data read i m minor = .ok (v, j)) : v.major = m ∧ v.WellMade P ∧
      ∃ k, argument data i minor = .ok (v.arg, k) ∧ v.arg < 2 ^ 64 ∧ Stands data k v.content j := by
  unfold dispatch at hrun
  by_cases h01 : m = 0 ∨ m = 1
  · rw [if_pos h01] at hrun
    obtain ⟨⟨value, k⟩, harg, hdone⟩ := except_bind_eq_ok.mp hrun
    obtain ⟨-, hlt, -⟩ := argument_eq_ok.mp harg
    obtain ⟨rfl, rfl⟩ := Prod.mk.inj (Except.ok.inj hdone)
    obtain ⟨harg', hmajor, hmade⟩ := number_spec (P := P) h01 hlt
    exact ⟨hmajor, hmade, k, harg'.symm ▸ harg, harg'.symm ▸ hlt, stands_nil.mpr rfl⟩
  rw [if_neg h01] at hrun
  by_cases h23 : m = 2 ∨ m = 3
  · rw [if_pos h23] at hrun
    obtain ⟨⟨length, k⟩, harg, hrest⟩ := except_bind_eq_ok.mp hrun
    obtain ⟨-, hlt, -⟩ := argument_eq_ok.mp harg
    obtain ⟨chunk, htake, hrest⟩ := except_bind_eq_ok.mp hrest
    obtain ⟨hstands, -⟩ := take_eq_ok.mp htake
    obtain rfl : length = chunk.length := Nat.add_left_cancel hstands.2
    by_cases h2 : m = 2
    · rw [if_pos h2] at hrest
      cases hrest
      exact ⟨h2.symm, hlt, k, harg, hlt, hstands⟩
    · rw [if_neg h2] at hrest
      cases hs : decodeUtf8 chunk with
      | none =>
        rw [hs] at hrest
        exact nomatch hrest
      | some s =>
        rw [hs] at hrest
        cases hrest
        obtain rfl := decodeUtf8_eq_some_iff.mp hs
        exact ⟨(h23.resolve_left h2).symm, hlt, k, harg, hlt, hstands⟩
  rw [if_neg h23] at hrun
  by_cases h4 : m = 4
  · rw [if_pos h4] at hrun
    obtain ⟨⟨count, k⟩, harg, hrest⟩ := except_bind_eq_ok.mp hrun
    obtain ⟨-, hlt, -⟩ := argument_eq_ok.mp harg
    obtain ⟨⟨items, k'⟩, hitems, hdone⟩ := except_bind_eq_ok.mp hrest
    obtain ⟨rfl, rfl⟩ := Prod.mk.inj (Except.ok.inj hdone)
    obtain ⟨⟨rfl, hall⟩, hstands⟩ := (h.repeatedly ..).mp hitems
    exact ⟨h4.symm, ⟨hlt, hall⟩, k, harg, hlt, hstands⟩
  rw [if_neg h4] at hrun
  by_cases h5 : m = 5
  · rw [if_pos h5] at hrun
    obtain ⟨⟨count, k⟩, harg, hrest⟩ := except_bind_eq_ok.mp hrun
    obtain ⟨-, hlt, -⟩ := argument_eq_ok.mp harg
    obtain ⟨⟨entries, k'⟩, hentries, hdone⟩ := except_bind_eq_ok.mp hrest
    obtain ⟨rfl, rfl⟩ := Prod.mk.inj (Except.ok.inj hdone)
    obtain ⟨rfl, hnodup, hall, hstands⟩ := (readEntries_nil_eq_ok h).mp hentries
    exact ⟨h5.symm, ⟨hlt, hnodup, hall⟩, k, harg, hlt, hstands⟩
  rw [if_neg h5] at hrun
  split_ifs at hrun with h7 h20 h21 h22
  all_goals
    subst minor
    cases hrun
    exact ⟨h7.symm, trivial, i + 1, rfl, (by decide : _ < 2 ^ 64), stands_nil.mpr rfl⟩

theorem number_eq (n : Int) :
    (if (int n).major = 0 then ((int n).arg : Int) else -1 - (int n).arg) = n := by
  by_cases h : 0 ≤ n
  · have hmajor : (int n).major = 0 := if_pos h
    have harg : (int n).arg = n.toNat := if_pos h
    rw [if_pos hmajor, harg, Int.toNat_of_nonneg h]
  · have hmajor : (int n).major = 1 := if_neg h
    have harg : (int n).arg = (-1 - n).toNat := if_neg h
    rw [if_neg (by rw [hmajor]; decide), harg]
    omega

theorem simple_spec {k : Nat} (harg : argument data i minor = .ok (n, k)) (hn : n < 24) :
    minor = n ∧ k = i + 1 := by
  obtain ⟨rfl, -, -⟩ := argument_eq_ok.mp harg
  rw [additional_of_lt hn, argument_of_lt hn] at harg
  exact ⟨additional_of_lt hn, (Prod.mk.inj (Except.ok.inj harg)).2.symm⟩

theorem dispatch_complete (h : Reads data read P encode) {k : Nat} (hv : v.WellMade P)
    (harg : argument data i minor = .ok (v.arg, k)) (hstands : Stands data k v.content j)
    (hj : j ≤ data.length) : dispatch data read i v.major minor = .ok (v, j) := by
  have htake : take data k v.content.length = .ok v.content :=
    take_eq_ok.mpr ⟨hstands.2 ▸ hstands, hstands.2 ▸ hj⟩
  cases v with
  | int n =>
    have hmajor : (int n).major = 0 ∨ (int n).major = 1 := by
      simp only [major]
      split_ifs <;> decide
    rw [stands_nil.mp hstands, dispatch, if_pos hmajor, harg]
    exact congrArg (fun n => Except.ok (int n, k)) (number_eq n)
  | bytes piece =>
    refine except_bind_eq_ok.mpr ⟨(piece.length, k), harg, except_bind_eq_ok.mpr ⟨piece, htake, ?_⟩⟩
    rw [hstands.2]
    rfl
  | text s =>
    refine except_bind_eq_ok.mpr ⟨((octets s).length, k), harg,
      except_bind_eq_ok.mpr ⟨octets s, htake, ?_⟩⟩
    rw [hstands.2, decodeUtf8_eq_some_iff.mpr rfl]
    rfl
  | array items =>
    refine except_bind_eq_ok.mpr ⟨(items.length, k), harg, except_bind_eq_ok.mpr ⟨(items, j), ?_, rfl⟩⟩
    exact (h.repeatedly ..).mpr ⟨⟨rfl, hv.2⟩, hstands⟩
  | map entries =>
    refine except_bind_eq_ok.mpr ⟨(entries.length, k), harg,
      except_bind_eq_ok.mpr ⟨(entries, j), ?_, rfl⟩⟩
    exact (readEntries_nil_eq_ok h).mpr ⟨rfl, hv.2.1, hv.2.2, hstands⟩
  | bool b =>
    cases b with
    | false =>
      obtain ⟨rfl, rfl⟩ := simple_spec harg (by decide)
      rw [stands_nil.mp hstands]
      rfl
    | true =>
      obtain ⟨rfl, rfl⟩ := simple_spec harg (by decide)
      rw [stands_nil.mp hstands]
      rfl
  | null =>
    obtain ⟨rfl, rfl⟩ := simple_spec harg (by decide)
    rw [stands_nil.mp hstands]
    rfl

theorem arg_lt (hv : v.WellMade P) : v.arg < 2 ^ 64 := by
  cases v with
  | int n =>
    obtain ⟨hlow, hhigh⟩ := hv
    simp only [arg]
    split_ifs <;> omega
  | bytes piece => exact hv
  | text s => exact hv
  | array items => exact hv.1
  | map entries => exact hv.1
  | bool b => cases b <;> decide
  | null => decide

/-- **What is read** fits, and stands encoded where it is read; and all such values are read. -/
theorem reads_item (data : List UInt8) (levels : Nat) :
    Reads data (item data levels) (Fits levels) encode := by
  induction levels with
  | zero => exact fun i v j => iff_of_false nofun fun h => h.1
  | succ levels ih =>
    intro i v j
    have hbyte : ∀ initial, data[i]? = some initial →
        item data (levels + 1) i = dispatch data (item data levels) i (initial.toNat >>> 5)
          (initial.toNat &&& 0x1F) := by
      intro initial hinitial
      have hlt : ¬data.length ≤ i := Nat.not_le.mpr (List.getElem?_eq_some_iff.mp hinitial).1
      rw [item, if_neg hlt, byteAt, hinitial]
      rfl
    rw [encode_eq, stands_append]
    constructor
    · intro hrun
      cases hinitial : data[i]? with
      | none =>
        rw [item, if_pos (List.getElem?_eq_none_iff.mp hinitial)] at hrun
        exact nomatch hrun
      | some initial =>
        rw [hbyte initial hinitial] at hrun
        obtain ⟨hmajor, hmade, k, harg, hlt, hstands⟩ := dispatch_sound ih hrun
        have hhead := (stands_head v.major_lt hlt).mpr ⟨initial, hinitial, hmajor.symm, harg⟩
        exact ⟨hmade, k, hhead, hstands⟩
    · rintro ⟨hmade, k, hhead, hstands⟩
      obtain ⟨initial, hinitial, hmajor, harg⟩ := (stands_head v.major_lt (arg_lt hmade)).mp hhead
      have hi : i ≤ data.length := (List.getElem?_eq_some_iff.mp hinitial).1.le
      rw [hbyte initial hinitial, hmajor]
      exact dispatch_complete ih hmade harg hstands (hstands.le_length (hhead.le_length hi))

/-! ## Errors -/

/-- `isinstance(exc, CborError)`. -/
def Raised.IsCborError (e : Raised) : Prop := ∃ text, e = .cborError text

theorem onlyRaises_cborError {α : Type} (text : String) :
    OnlyRaises Raised.IsCborError (.error (.cborError text) : Except Raised α) := .error ⟨text, rfl⟩

theorem onlyRaises_take (data : List UInt8) (i length : Nat) :
    OnlyRaises Raised.IsCborError (take data i length) := by
  unfold take
  split_ifs
  · exact onlyRaises_cborError _
  · exact .ok _

theorem onlyRaises_wide (data : List UInt8) (i w minor : Nat) :
    OnlyRaises Raised.IsCborError (wide data i w minor) := by
  refine .bind (onlyRaises_take _ _ _) fun chunk hchunk => ?_
  have hlength : chunk.length = w := (Nat.add_left_cancel (take_eq_ok.mp hchunk).1.2).symm
  rw [unpack, if_pos hlength]
  refine .bind (.ok _) fun value _ => .bind ?_ fun _ _ => .ok _
  unfold shortest
  split_ifs
  · exact onlyRaises_cborError _
  · exact .ok _

theorem onlyRaises_argument (data : List UInt8) (i minor : Nat) :
    OnlyRaises Raised.IsCborError (argument data i minor) := by
  unfold argument
  rw [byte_eq_wide]
  split_ifs
  · exact .ok _
  · exact onlyRaises_wide _ _ _ _
  · exact onlyRaises_wide _ _ _ _
  · exact onlyRaises_wide _ _ _ _
  · exact onlyRaises_wide _ _ _ _
  · exact onlyRaises_cborError _
  · exact onlyRaises_cborError _

theorem onlyRaises_mapKey (v : Cbor) : OnlyRaises Raised.IsCborError (mapKey v) := by
  unfold mapKey
  split
  · exact .ok _
  · exact onlyRaises_cborError _

theorem onlyRaises_readEntries (h : ∀ i, OnlyRaises Raised.IsCborError (read i)) (count : Nat)
    (mapping : List (Key × Cbor)) (i : Nat) :
    OnlyRaises Raised.IsCborError (readEntries read count mapping i) := by
  induction count generalizing mapping i with
  | zero => exact .ok _
  | succ count ih =>
    refine .bind (h i) fun value _ => .bind (onlyRaises_mapKey _) fun key _ => ?_
    dsimp only
    split_ifs
    · exact onlyRaises_cborError _
    · exact .bind (h _) fun _ _ => ih _ _

theorem onlyRaises_dispatch (h : ∀ i, OnlyRaises Raised.IsCborError (read i))
    (data : List UInt8) (i m minor : Nat) :
    OnlyRaises Raised.IsCborError (dispatch data read i m minor) := by
  have harg := onlyRaises_argument data i minor
  unfold dispatch
  by_cases h01 : m = 0 ∨ m = 1
  · rw [if_pos h01]
    exact .bind harg fun _ _ => .ok _
  rw [if_neg h01]
  by_cases h23 : m = 2 ∨ m = 3
  · rw [if_pos h23]
    refine .bind harg fun _ _ => .bind (onlyRaises_take _ _ _) fun chunk _ => ?_
    split_ifs
    · exact .ok _
    · cases decodeUtf8 chunk with
      | none => exact onlyRaises_cborError _
      | some s => exact .ok _
  rw [if_neg h23]
  split_ifs
  · exact .bind harg fun _ _ => .bind (.repeatedly h _ _) fun _ _ => .ok _
  · exact .bind harg fun _ _ => .bind (onlyRaises_readEntries h _ _ _) fun _ _ => .ok _
  · exact .ok _
  · exact .ok _
  · exact .ok _
  · exact onlyRaises_cborError _
  · exact onlyRaises_cborError _

/-- **The decoder raises `CborError` only.** -/
theorem onlyRaises_item (data : List UInt8) (levels i : Nat) :
    OnlyRaises Raised.IsCborError (item data levels i) := by
  induction levels generalizing i with
  | zero => exact onlyRaises_cborError _
  | succ levels ih =>
    rw [item]
    split_ifs with hlt
    · exact onlyRaises_cborError _
    · rw [byteAt, List.getElem?_eq_getElem (Nat.not_le.mp hlt)]
      exact .bind (.ok _) fun _ _ => onlyRaises_dispatch ih _ _ _ _

/-! ## Equal values -/

theorem eqItems_iff {vs ws : List Cbor} :
    eqItems vs ws = true ↔ List.Forall₂ (fun v w => eq v w = true) vs ws := by
  induction vs generalizing ws with
  | nil => cases ws <;> simp [eqItems]
  | cons v vs ih => cases ws <;> simp [eqItems, ih]

theorem eqEntries_iff {es fs : List (Key × Cbor)} : eqEntries es fs = true ↔
    ∀ entry ∈ es, ∃ w, fs.lookup entry.1 = some w ∧ eq entry.2 w = true := by
  induction es with
  | nil => exact iff_of_true rfl nofun
  | cons entry es ih =>
    obtain ⟨key, v⟩ := entry
    rw [eqEntries, Bool.and_eq_true, ih, List.forall_mem_cons]
    cases fs.lookup key <;> simp

theorem Reordered.items {vs ws : List Cbor} (h : List.Forall₂ Reordered vs ws) (us : List Cbor) :
    Reordered (array (us ++ vs)) (array (us ++ ws)) := by
  induction h generalizing us with
  | nil => exact .refl _
  | @cons v w vs ws hvw _ ih =>
    have hrest := ih (us ++ [w])
    rw [List.append_assoc, List.append_assoc] at hrest
    exact .trans (.item us vs hvw) hrest

theorem Reordered.values {es fs : List (Key × Cbor)}
    (h : List.Forall₂ (fun e f => e.1 = f.1 ∧ Reordered e.2 f.2) es fs)
    (ds : List (Key × Cbor)) : Reordered (map (ds ++ es)) (map (ds ++ fs)) := by
  induction h generalizing ds with
  | nil => exact .refl _
  | @cons e f es fs hef _ ih =>
    obtain ⟨key, v⟩ := e
    obtain ⟨_, w⟩ := f
    obtain ⟨rfl, hvw⟩ := hef
    have hrest := ih (ds ++ [(key, w)])
    rw [List.append_assoc, List.append_assoc] at hrest
    exact .trans (.entry key ds es hvw) hrest

/-- **Values that are equal** are reordered. -/
theorem reordered_of_eq (hv : Fits levels v) (hw : Fits levels w) (h : eq v w = true) :
    Reordered v w := by
  induction levels generalizing v w with
  | zero => exact hv.elim
  | succ levels ih =>
    cases v with
    | array vs =>
      cases w with
      | array ws =>
        rw [eq, eqItems_iff] at h
        have hall : List.Forall₂ Reordered vs ws := by
          refine List.forall₂_iff_zip.mpr ⟨h.length_eq, fun {v w} hmem => ?_⟩
          obtain ⟨hvmem, hwmem⟩ := List.of_mem_zip hmem
          exact ih (hv.2 v hvmem) (hw.2 w hwmem) (List.forall₂_zip h hmem)
        exact Reordered.items hall []
      | _ => simp [eq] at h
    | map es =>
      cases w with
      | map fs =>
        rw [eq, Bool.and_eq_true, eqEntries_iff, beq_iff_eq] at h
        obtain ⟨hlength, hvalues⟩ := h
        have hkeys : (es.map Prod.fst).Nodup :=
          List.Nodup.of_map Key.norm (by rw [List.map_map]; exact hv.2.1)
        have hrelated : ∀ entry ∈ es, ∃ w, (entry.1, w) ∈ fs ∧ Reordered entry.2 w := by
          intro entry hentry
          obtain ⟨w, hlookup, heq⟩ := hvalues entry hentry
          have hmem := mem_of_lookup hlookup
          exact ⟨w, hmem, ih (hv.2.2 entry hentry).2 (hw.2.2 _ hmem).2 heq⟩
        obtain ⟨ordered, hperm, hall⟩ := exists_perm_of_related hkeys hlength hrelated
        exact .trans (Reordered.values hall []) (.entries hperm)
      | _ => simp [eq] at h
    | null =>
      cases w with
      | null => exact .refl _
      | _ => simp [eq] at h
    | _ =>
      -- what has no parts is equal to itself alone
      cases w <;> simp [eq] at h
      all_goals
        subst h
        exact .refl _

/-! ## Decoding -/

theorem decodePrefix_eq_ok : decodePrefix data = .ok (v, n) ↔
    Fits (maxDepth + 1) v ∧ encode v <+: data ∧ n = (encode v).length := by
  rw [decodePrefix, reads_item data (maxDepth + 1) 0 v n, Stands, List.drop_zero, Nat.zero_add]

theorem decode_eq_ok : decode data = .ok v ↔ Fits (maxDepth + 1) v ∧ data = encode v := by
  unfold decode
  rw [except_bind_eq_ok]
  constructor
  · rintro ⟨⟨w, n⟩, hprefix, hrest⟩
    dsimp only at hrest
    split_ifs at hrest with hall
    · exact nomatch hrest
    obtain rfl := Except.ok.inj hrest
    obtain ⟨hfits, hstands⟩ := (reads_item data _ 0 w n).mp hprefix
    rw [not_not.mp hall] at hstands
    exact ⟨hfits, stands_all.mp hstands⟩
  · rintro ⟨hfits, rfl⟩
    refine ⟨(v, (encode v).length), decodePrefix_eq_ok.mpr ⟨hfits, List.prefix_rfl, rfl⟩, ?_⟩
    exact if_neg (not_not.mpr rfl)

end Cbor

open Cbor

/-- **Decoding is canonical.**  A value is read back from its encoding, whatever follows; all of
the bytes are read; the bytes of equal values differ in the order of map entries; and nothing but
`CborError` is raised. -/
theorem decode_canonical :
    (∀ (v : Cbor) (t : List UInt8), v.Fits (maxDepth + 1) →
      decodePrefix (v.encode ++ t) = .ok (v, v.encode.length)) ∧
    (∀ (data : List UInt8) (v : Cbor), decode data = .ok v →
      decodePrefix data = .ok (v, data.length)) ∧
    (∀ (a b : List UInt8) (v w : Cbor), decode a = .ok v → decode b = .ok w → v.eq w = true →
      v.Reordered w ∧ a = v.encode ∧ b = w.encode) ∧
    (∀ data : List UInt8, (∃ v, decode data = .ok v) ∨
      ∃ text, decode data = .error (.cborError text)) := by
  refine ⟨fun v t hv => ?_, fun data v hrun => ?_, fun a b v w ha hb heq => ?_, fun data => ?_⟩
  · exact decodePrefix_eq_ok.mpr ⟨hv, List.prefix_append .., rfl⟩
  · obtain ⟨hv, rfl⟩ := decode_eq_ok.mp hrun
    exact decodePrefix_eq_ok.mpr ⟨hv, List.prefix_rfl, rfl⟩
  · obtain ⟨hv, ha⟩ := decode_eq_ok.mp ha
    obtain ⟨hw, hb⟩ := decode_eq_ok.mp hb
    exact ⟨reordered_of_eq hv hw heq, ha, hb⟩
  · have hraises : OnlyRaises Raised.IsCborError (decode data) := by
      refine .bind (onlyRaises_item _ _ _) fun _ _ => ?_
      dsimp only
      split_ifs
      · exact onlyRaises_cborError _
      · exact .ok _
    rcases hraises.cases with hok | ⟨_, he, text, rfl⟩
    · exact .inl hok
    · exact .inr ⟨text, he⟩

/-- To Python `True` is the key `1` again. -/
example : decode [0xA2, 0x01, 0x61, 0x61, 0xF5, 0x00] =
    .error (.cborError "duplicate map key True") := by rfl

end Mfa
end CampusID
