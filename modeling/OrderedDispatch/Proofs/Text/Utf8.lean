/-
**UTF-8 spells each text in one way.**

A text is spelt by the bytes of its characters one after the other.  Bytes are read by the ranges
that their values fall in.  The two are inverse to each other: reading gives a text exactly if the
bytes are those of the text, so that bytes are unreadable exactly if they are those of no text.

Main results:

* `Text.exists_decodeHead`, `Text.eq_append_of_decodeHead` — the bytes of one character are read as
  this character, and nothing else is;
* `Text.decode_eq_some_iff` — **reading and spelling are inverse to each other**;
* `Text.encode_injective` — no two texts are spelt alike;
* `Text.mem_utf8EncodeChar_iff` — a byte below the bytes of the longer spellings is a character by
  itself wherever it stands.
-/

import OrderedDispatch.Text.Utf8

set_option relaxedAutoImplicit false
set_option autoImplicit false

namespace OrderedDispatch.Text

variable {c : Char} {b : UInt8} {r rest bytes : List UInt8} {acc s t : List Char}

/-! ### Numbers of characters and of bytes -/

/-- A character has a number in range that is no half of a surrogate pair. -/
theorem toNat_cases (c : Char) : c.toNat < 0xD800 ∨ 0xE000 ≤ c.toNat ∧ c.toNat < 0x110000 :=
  c.valid

theorem ofNat_eq {n : Nat} (h : n = c.toNat) : Char.ofNat n = c := by
  rw [h, Char.ofNat_toNat]

theorem toNat_ofNat_of_valid {n : Nat} (h : n < 0xD800 ∨ 0xE000 ≤ n ∧ n < 0x110000) :
    (Char.ofNat n).toNat = n := by
  have hvalid : n.isValidChar := h
  rw [Char.ofNat, dif_pos hvalid]
  rfl

theorem byte_eq {n : Nat} (h : b.toNat = n) : b = UInt8.ofNat n := by
  rw [← h, UInt8.ofNat_toNat]

theorem isContinuation_ofNat (n : Nat) :
    isContinuation (UInt8.ofNat (n % 0x40 + 0x80)) = true := by
  simp only [isContinuation, UInt8.toNat_ofNat', Bool.and_eq_true, decide_eq_true_eq]
  omega

theorem payload_ofNat (n : Nat) : payload (UInt8.ofNat (n % 0x40 + 0x80)) = n % 0x40 := by
  simp only [payload, UInt8.toNat_ofNat']
  omega

/-! ### One character -/

/-- The bytes of a character by its number. -/
theorem utf8EncodeChar_eq (c : Char) : String.utf8EncodeChar c =
    if c.toNat < 0x80 then [UInt8.ofNat c.toNat]
    else if c.toNat < 0x800 then
      [UInt8.ofNat (c.toNat / 0x40 % 0x20 + 0xC0), UInt8.ofNat (c.toNat % 0x40 + 0x80)]
    else if c.toNat < 0x10000 then
      [UInt8.ofNat (c.toNat / 0x1000 % 0x10 + 0xE0), UInt8.ofNat (c.toNat / 0x40 % 0x40 + 0x80),
        UInt8.ofNat (c.toNat % 0x40 + 0x80)]
    else
      [UInt8.ofNat (c.toNat / 0x40000 % 0x08 + 0xF0),
        UInt8.ofNat (c.toNat / 0x1000 % 0x40 + 0x80),
        UInt8.ofNat (c.toNat / 0x40 % 0x40 + 0x80), UInt8.ofNat (c.toNat % 0x40 + 0x80)] := by
  have hval : c.val.toNat = c.toNat := rfl
  simp only [String.utf8EncodeChar, hval, ← Nat.lt_succ_iff]

/-- The bytes of a character are read as this character, and what follows them is left. -/
theorem exists_decodeHead (c : Char) (rest : List UInt8) :
    ∃ b r, String.utf8EncodeChar c ++ rest = b :: r ∧ decodeHead b r = some (c, rest) := by
  have hc := toNat_cases c
  rw [utf8EncodeChar_eq]
  split
  · refine ⟨_, _, List.cons_append, ?_⟩
    simp only [decodeHead, UInt8.toNat_ofNat', List.nil_append]
    rw [if_pos (by omega), ofNat_eq (c := c) (by omega)]
  split
  · refine ⟨_, _, List.cons_append, ?_⟩
    simp only [decodeHead, UInt8.toNat_ofNat', List.cons_append, List.nil_append,
      isContinuation_ofNat, payload_ofNat, if_true]
    rw [if_neg (by omega), if_neg (by omega), if_pos (by omega), ofNat_eq (c := c) (by omega)]
  split
  · refine ⟨_, _, List.cons_append, ?_⟩
    simp only [decodeHead, UInt8.toNat_ofNat', List.cons_append, List.nil_append,
      isContinuation_ofNat, payload_ofNat, Bool.true_and]
    rw [if_neg (by omega), if_neg (by omega), if_neg (by omega), if_pos (by omega),
      if_pos (by simp; omega), ofNat_eq (c := c) (by omega)]
  · refine ⟨_, _, List.cons_append, ?_⟩
    simp only [decodeHead, UInt8.toNat_ofNat', List.cons_append, List.nil_append,
      isContinuation_ofNat, payload_ofNat, Bool.true_and]
    rw [if_neg (by omega), if_neg (by omega), if_neg (by omega), if_neg (by omega),
      if_pos (by omega), if_pos (by simp; omega), ofNat_eq (c := c) (by omega)]

/-- What is read as a character are the bytes of this character.  The ranges of the bytes are those
in which the numbers of characters with so many bytes lie. -/
theorem eq_append_of_decodeHead (h : decodeHead b r = some (c, rest)) :
    b :: r = String.utf8EncodeChar c ++ rest := by
  have hb : b.toNat < 256 := b.toNat_lt
  rw [utf8EncodeChar_eq]
  simp only [decodeHead, isContinuation, payload] at h
  split at h
  · obtain ⟨rfl, rfl⟩ := Prod.mk.inj (Option.some.inj h)
    rw [toNat_ofNat_of_valid (by omega), if_pos (by omega)]
    simp
  split at h
  · cases h
  split at h
  · split at h
    · obtain ⟨hbytes, h⟩ := Option.ite_none_right_eq_some.1 h
      simp only [Bool.and_eq_true, decide_eq_true_eq] at hbytes
      obtain ⟨rfl, rfl⟩ := Prod.mk.inj (Option.some.inj h)
      rw [toNat_ofNat_of_valid (by omega), if_neg (by omega), if_pos (by omega)]
      simp only [List.cons_append, List.nil_append, List.cons.injEq, and_true]
      exact ⟨byte_eq (by omega), byte_eq (by omega)⟩
    · cases h
  split at h
  · split at h
    · obtain ⟨hall, h⟩ := Option.ite_none_right_eq_some.1 h
      simp only [Bool.and_eq_true, decide_eq_true_eq, Bool.not_eq_true',
        Bool.and_eq_false_iff] at hall
      obtain ⟨⟨hbytes, hlong⟩, hhalf⟩ := hall
      replace hlong := of_decide_eq_true hlong
      replace hhalf := hhalf.imp of_decide_eq_false of_decide_eq_false
      obtain ⟨rfl, rfl⟩ := Prod.mk.inj (Option.some.inj h)
      rw [toNat_ofNat_of_valid (by omega), if_neg (by omega), if_neg (by omega),
        if_pos (by omega)]
      simp only [List.cons_append, List.nil_append, List.cons.injEq, and_true]
      exact ⟨byte_eq (by omega), byte_eq (by omega), byte_eq (by omega)⟩
    · cases h
  split at h
  · split at h
    · obtain ⟨hall, h⟩ := Option.ite_none_right_eq_some.1 h
      simp only [Bool.and_eq_true, decide_eq_true_eq] at hall
      obtain ⟨⟨hbytes, hlong⟩, hrange⟩ := hall
      replace hlong := of_decide_eq_true hlong
      replace hrange := of_decide_eq_true hrange
      obtain ⟨rfl, rfl⟩ := Prod.mk.inj (Option.some.inj h)
      rw [toNat_ofNat_of_valid (by omega), if_neg (by omega), if_neg (by omega),
        if_neg (by omega)]
      simp only [List.cons_append, List.nil_append, List.cons.injEq, and_true]
      exact ⟨byte_eq (by omega), byte_eq (by omega), byte_eq (by omega), byte_eq (by omega)⟩
    · cases h
  · cases h

/-- A byte below the bytes of the longer spellings is a character by itself wherever it stands. -/
theorem mem_utf8EncodeChar_iff (hb : b.toNat < 0x80) :
    b ∈ String.utf8EncodeChar c ↔ c.toNat = b.toNat := by
  have hbyte : ∀ n : Nat, n < 256 → (b = UInt8.ofNat n ↔ b.toNat = n) := by
    intro n hn
    rw [← UInt8.toNat_inj, UInt8.toNat_ofNat', Nat.mod_eq_of_lt hn]
  rw [utf8EncodeChar_eq]
  split
  · rw [List.mem_singleton, hbyte _ (by omega)]
    exact eq_comm
  split
  · simp only [List.mem_cons, List.not_mem_nil, or_false]
    rw [hbyte _ (by omega), hbyte _ (by omega)]
    omega
  split
  · simp only [List.mem_cons, List.not_mem_nil, or_false]
    rw [hbyte _ (by omega), hbyte _ (by omega), hbyte _ (by omega)]
    omega
  · simp only [List.mem_cons, List.not_mem_nil, or_false]
    rw [hbyte _ (by omega), hbyte _ (by omega), hbyte _ (by omega), hbyte _ (by omega)]
    omega

/-! ### Texts -/

theorem encode_cons (c : Char) (s : List Char) :
    encode (c :: s) = String.utf8EncodeChar c ++ encode s := List.flatMap_cons

theorem decodeOnto_of_decodeHead (h : decodeHead b r = some (c, rest)) :
    decodeOnto acc (b :: r) = decodeOnto (c :: acc) rest := by
  rw [decodeOnto]
  split
  · rename_i hnone
    rw [h] at hnone
    cases hnone
  · rename_i c' rest' hsome
    rw [h] at hsome
    obtain ⟨rfl, rfl⟩ := Prod.mk.inj (Option.some.inj hsome)
    rfl

/-- The bytes of a text are read as this text. -/
theorem decodeOnto_encode (acc s : List Char) :
    decodeOnto acc (encode s) = some (acc.reverse ++ s) := by
  induction s generalizing acc with
  | nil => rw [encode_nil, decodeOnto, List.append_nil]
  | cons c s ih =>
      obtain ⟨b, r, hbytes, hhead⟩ := exists_decodeHead c (encode s)
      rw [encode_cons, hbytes, decodeOnto_of_decodeHead hhead, ih, List.reverse_cons,
        List.append_assoc, List.singleton_append]

/-- What is read as a text are the bytes of this text. -/
theorem encode_of_decodeOnto (h : decodeOnto acc bytes = some s) :
    ∃ t, s = acc.reverse ++ t ∧ encode t = bytes := by
  fun_induction decodeOnto acc bytes with
  | case1 acc => exact ⟨[], by simpa using h.symm, rfl⟩
  | case2 acc b r hnone => cases h
  | case3 acc b r c rest hhead ih =>
      obtain ⟨t, rfl, rfl⟩ := ih h
      refine ⟨c :: t, by simp, ?_⟩
      rw [encode_cons, eq_append_of_decodeHead hhead]

/-- **Reading and spelling are inverse to each other.** -/
theorem decode_eq_some_iff : decode bytes = some s ↔ encode s = bytes := by
  constructor
  · intro h
    obtain ⟨t, rfl, ht⟩ := encode_of_decodeOnto h
    exact ht
  · rintro rfl
    exact decodeOnto_encode [] s

@[simp] theorem decode_encode (s : List Char) : decode (encode s) = some s :=
  decode_eq_some_iff.2 rfl

/-- No two texts are spelt alike. -/
theorem encode_injective (h : encode s = encode t) : s = t := by
  have hdecode := decode_encode s
  rw [h, decode_encode] at hdecode
  exact (Option.some.inj hdecode).symm

end OrderedDispatch.Text
