import Mathlib.Tactic

/-!
Records with a type of seven bits and a value of up to 511 bytes, each behind a header of
two bytes: the type in the high bits, the length of the value in the low ones.

* `Record`, `encode`, `encodeAll`: the format.
* `split`: the record at the front of a buffer; `split_eq_some_iff` says that it undoes
  `encode` and nothing else.
* `decode`: the records up to the end marker. `decode_encodeAll`: what follows the end
  marker does not count. `decode_take`: of a buffer that is cut, only whole records count.
-/

namespace Tlv

/-- A record. -/
@[ext]
structure Record where
  type : ℕ
  value : List UInt8
  type_lt : type < 128
  length_lt : value.length < 512
  deriving DecidableEq

/-- The header, as a number of sixteen bits. -/
def Record.header (r : Record) : ℕ := r.type * 512 + r.value.length

/-- The bytes of a record, the high byte of the header first. -/
def Record.encode (r : Record) : List UInt8 :=
  UInt8.ofNat (r.header / 256) :: UInt8.ofNat (r.header % 256) :: r.value

/-- The bytes of records that follow each other. -/
def encodeAll (rs : List Record) : List UInt8 := rs.flatMap Record.encode

lemma Record.header_lt (r : Record) : r.header < 65536 := by
  have htype := r.type_lt
  have hlength := r.length_lt
  rw [header]
  omega

@[simp] lemma Record.length_encode (r : Record) : r.encode.length = r.value.length + 2 := rfl

@[simp] lemma encodeAll_nil : encodeAll [] = [] := rfl

@[simp] lemma encodeAll_cons (r : Record) (rs : List Record) :
    encodeAll (r :: rs) = r.encode ++ encodeAll rs := rfl

@[simp] lemma encodeAll_append (rs ss : List Record) :
    encodeAll (rs ++ ss) = encodeAll rs ++ encodeAll ss := List.flatMap_append

/-! ### One record -/

/-- The record at the front of a buffer, and the bytes behind it. -/
def split : List UInt8 → Option (Record × List UInt8)
  | hi :: lo :: rest =>
      let header := hi.toNat * 256 + lo.toNat
      if h : header % 512 ≤ rest.length then
        some (⟨header / 512, rest.take (header % 512),
          by have := hi.toNat_lt; have := lo.toNat_lt; omega,
          by rw [List.length_take]; omega⟩, rest.drop (header % 512))
      else none
  | _ => none

lemma split_of_header {hi lo : UInt8} {r : Record}
    (h : hi.toNat * 256 + lo.toNat = r.header) (rest : List UInt8) :
    split (hi :: lo :: (r.value ++ rest)) = some (r, rest) := by
  have hlength : r.header % 512 = r.value.length := by
    have := r.length_lt
    rw [Record.header]
    omega
  have htype : r.header / 512 = r.type := by
    have := r.length_lt
    rw [Record.header]
    omega
  rw [split]
  simp only [h, hlength, htype]
  rw [dif_pos (by simp)]
  simp

@[simp] lemma split_encode (r : Record) (rest : List UInt8) :
    split (r.encode ++ rest) = some (r, rest) := by
  have hlt := r.header_lt
  refine split_of_header ?_ rest
  rw [UInt8.toNat_ofNat', UInt8.toNat_ofNat']
  omega

/-- **Taking a record off undoes writing it, and nothing else.** -/
lemma split_eq_some_iff {buf rest : List UInt8} {r : Record} :
    split buf = some (r, rest) ↔ buf = r.encode ++ rest := by
  constructor
  · intro h
    match buf, h with
    | hi :: lo :: bytes, h =>
        have hhi := hi.toNat_lt
        have hlo := lo.toNat_lt
        rw [split] at h
        split_ifs at h with hle
        obtain ⟨rfl, rfl⟩ := Prod.mk.inj (Option.some.inj h)
        have hheader (hlt : (bytes.take ((hi.toNat * 256 + lo.toNat) % 512)).length
            = (hi.toNat * 256 + lo.toNat) % 512) :
            (hi.toNat * 256 + lo.toNat) / 512 * 512
              + (bytes.take ((hi.toNat * 256 + lo.toNat) % 512)).length
              = hi.toNat * 256 + lo.toNat := by
          rw [hlt]
          omega
        rw [Record.encode, Record.header]
        simp only
        rw [hheader (List.length_take_of_le hle)]
        have hhi' : UInt8.ofNat ((hi.toNat * 256 + lo.toNat) / 256) = hi := by
          rw [show (hi.toNat * 256 + lo.toNat) / 256 = hi.toNat by omega, UInt8.ofNat_toNat]
        have hlo' : UInt8.ofNat ((hi.toNat * 256 + lo.toNat) % 256) = lo := by
          rw [show (hi.toNat * 256 + lo.toNat) % 256 = lo.toNat by omega, UInt8.ofNat_toNat]
        rw [hhi', hlo', List.cons_append, List.cons_append, List.take_append_drop]
  · rintro rfl
    exact split_encode r rest

/-- A record whose value is there. -/
lemma exists_split {hi lo : UInt8} {rest : List UInt8}
    (h : (hi.toNat * 256 + lo.toNat) % 512 ≤ rest.length) :
    ∃ r : Record, split (hi :: lo :: rest)
        = some (r, rest.drop ((hi.toNat * 256 + lo.toNat) % 512)) ∧
      r.type = (hi.toNat * 256 + lo.toNat) / 512 ∧
      r.value = rest.take ((hi.toNat * 256 + lo.toNat) % 512) := by
  rw [split, dif_pos h]
  exact ⟨_, rfl, rfl, rfl⟩

/-- A record whose value is not all there. -/
lemma split_of_length_lt {hi lo : UInt8} {rest : List UInt8}
    (h : rest.length < (hi.toNat * 256 + lo.toNat) % 512) : split (hi :: lo :: rest) = none := by
  rw [split, dif_neg (by omega)]

/-- A header that is not all there. -/
lemma split_of_length_lt_two {buf : List UInt8} (h : buf.length < 2) : split buf = none := by
  match buf, h with
  | [], _ => rfl
  | [_], _ => rfl

lemma length_lt_of_split {buf rest : List UInt8} {r : Record} (h : split buf = some (r, rest)) :
    rest.length < buf.length := by
  rw [split_eq_some_iff.mp h, List.length_append, Record.length_encode]
  omega

/-- A record that is cut is not taken off. -/
lemma split_take {r : Record} {n : ℕ} (rest : List UInt8) (hn : n < r.encode.length) :
    split ((r.encode ++ rest).take n) = none := by
  rw [Option.eq_none_iff_forall_ne_some]
  rintro ⟨r', rest'⟩ h
  have hbuf : r.encode ++ rest = r'.encode ++ (rest' ++ (r.encode ++ rest).drop n) := by
    rw [← List.append_assoc, ← split_eq_some_iff.mp h, List.take_append_drop]
  have hr : r' = r := by
    have heq := split_eq_some_iff.mpr hbuf
    rw [split_encode] at heq
    exact (Prod.mk.inj (Option.some.inj heq)).1.symm
  subst hr
  have hlength := congrArg List.length (split_eq_some_iff.mp h)
  rw [List.length_take, List.length_append, List.length_append] at hlength
  omega

/-! ### All of them -/

/-- The records of a buffer up to the one of type 0, or up to a record that is cut. -/
def decode (buf : List UInt8) : List Record :=
  match h : split buf with
  | none => []
  | some (r, rest) =>
      have := length_lt_of_split h
      if r.type = 0 then [] else r :: decode rest
termination_by buf.length

lemma decode_of_none {buf : List UInt8} (h : split buf = none) : decode buf = [] := by
  rw [decode]
  split
  · rfl
  · simp_all

lemma decode_of_some {buf rest : List UInt8} {r : Record} (h : split buf = some (r, rest)) :
    decode buf = if r.type = 0 then [] else r :: decode rest := by
  rw [decode]
  split
  · simp_all
  · rename_i h'
    obtain ⟨rfl, rfl⟩ := Prod.mk.inj (Option.some.inj (h.symm.trans h'))
    rfl

/-- **The records of a buffer are read back**, whatever follows the end marker. -/
theorem decode_encodeAll {rs : List Record} (hrs : ∀ r ∈ rs, r.type ≠ 0) {e : Record}
    (he : e.type = 0) (trailing : List UInt8) :
    decode (encodeAll rs ++ e.encode ++ trailing) = rs := by
  induction rs with
  | nil =>
      rw [encodeAll_nil, List.nil_append, decode_of_some (split_encode e trailing), if_pos he]
  | cons r rs ih =>
      rw [List.forall_mem_cons] at hrs
      rw [encodeAll_cons, List.append_assoc, List.append_assoc, decode_of_some (split_encode r _),
        if_neg hrs.1, ← List.append_assoc, ih hrs.2]

/-- **A record that is cut, and all behind it, does not count.** -/
theorem decode_take {rs : List Record} {r : Record} {n : ℕ} (rest : List UInt8)
    (hn : n < (encodeAll rs ++ r.encode).length) :
    decode ((encodeAll rs ++ (r.encode ++ rest)).take n) <+: rs := by
  induction rs generalizing n with
  | nil =>
      rw [encodeAll_nil, List.nil_append, decode_of_none (split_take rest (by simpa using hn))]
  | cons s rs ih =>
      rw [encodeAll_cons, List.append_assoc] at hn ⊢
      rcases Nat.lt_or_ge n s.encode.length with hlt | hge
      · rw [decode_of_none (split_take _ hlt)]
        exact List.nil_prefix
      · rw [List.take_append, List.take_of_length_le hge, decode_of_some (split_encode s _)]
        split_ifs
        · exact List.nil_prefix
        · rw [List.length_append] at hn
          exact List.cons_prefix_cons.mpr ⟨rfl, ih (by omega)⟩

end Tlv
