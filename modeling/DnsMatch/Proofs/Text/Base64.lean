import DnsMatch.Proofs.Text.Blank
import DnsMatch.Text.Base64

/-! # Base64 text and the octets it stands for

Each octet string has one written form, and reading takes exactly the written
forms with white space put in anywhere (`decode?_eq_some_iff`). A group of four
characters is settled by itself: `decodeGroup?` reads those that three octets
are written as, and `decodeLast?` those that one, two or three are. -/

namespace DnsMatch.Text.Base64

variable {octets out : Octets} {group text : List UInt8} {a b c d code : UInt8} {value : Nat}

/-! ## Digits -/

theorem value?_digit : ∀ value < 64, value? (digit value) = some value := by
  decide

theorem value?_pad : value? pad = none := by
  decide

theorem forall_octet {P : UInt8 → Prop} (h : ∀ code < 256, P (UInt8.ofNat code))
    (octet : UInt8) : P octet :=
  octet.ofNat_toNat ▸ h octet.toNat octet.toNat_lt

theorem value?_eq_some_iff : value? code = some value ↔ value < 64 ∧ code = digit value := by
  constructor
  · have hall := forall_octet (P := fun code => ∀ value ∈ value? code,
      value < 64 ∧ code = digit value) (by decide +kernel)
    exact hall code value
  · rintro ⟨hlt, rfl⟩
    exact value?_digit value hlt

theorem digit_ne_pad (h : value < 64) : digit value ≠ pad := by
  intro heq
  have hvalue := value?_digit value h
  rw [heq, value?_pad] at hvalue
  cases hvalue

/-- A number that fits into an octet is the value of that octet. -/
theorem toNat_octet (h : value < 256) : (UInt8.ofNat value).toNat = value :=
  UInt8.toNat_ofNat_of_lt' h

theorem octet_eq {octet : UInt8} (h : value = octet.toNat) : UInt8.ofNat value = octet :=
  h ▸ octet.ofNat_toNat

/-! ## Groups of four characters -/

theorem decodeGroup?_eq_some_iff :
    decodeGroup? a b c d = some group ↔
      ∃ x y z, group = [x, y, z] ∧ [a, b, c, d] = encode [x, y, z] := by
  constructor
  · intro h
    simp only [decodeGroup?, Option.bind_eq_bind, Option.bind_eq_some_iff, value?_eq_some_iff,
      Option.some.injEq] at h
    obtain ⟨v, ⟨hv, rfl⟩, w, ⟨hw, rfl⟩, x, ⟨hx, rfl⟩, y, ⟨hy, rfl⟩, rfl⟩ := h
    refine ⟨_, _, _, rfl, ?_⟩
    have hfirst := toNat_octet (show v * 4 + w / 16 < 256 by omega)
    have hsecond := toNat_octet (show w % 16 * 16 + x / 4 < 256 by omega)
    have hthird := toNat_octet (show x % 4 * 64 + y < 256 by omega)
    simp only [encode, hfirst, hsecond, hthird, List.cons.injEq, and_true]
    exact ⟨congrArg digit (by omega), congrArg digit (by omega), congrArg digit (by omega),
      congrArg digit (by omega)⟩
  · rintro ⟨x, y, z, rfl, h⟩
    have hx := x.toNat_lt
    have hy := y.toNat_lt
    have hz := z.toNat_lt
    simp only [encode, List.cons.injEq, and_true] at h
    obtain ⟨rfl, rfl, rfl, rfl⟩ := h
    simp only [decodeGroup?, value?_digit _ (show x.toNat / 4 < 64 by omega),
      value?_digit _ (show x.toNat % 4 * 16 + y.toNat / 16 < 64 by omega),
      value?_digit _ (show y.toNat % 16 * 4 + z.toNat / 64 < 64 by omega),
      value?_digit _ (show z.toNat % 64 < 64 by omega), Option.bind_eq_bind, Option.bind_some,
      Option.some.injEq, List.cons.injEq, and_true]
    exact ⟨octet_eq (by omega), octet_eq (by omega), octet_eq (by omega)⟩

/-- A last group without padding is a group like any other. -/
theorem decodeLast?_of_ne_pad (hc : c ≠ pad) (hd : d ≠ pad) :
    decodeLast? a b c d = decodeGroup? a b c d := by
  simp only [decodeLast?, decodeGroup?, if_neg hc, if_neg hd]

theorem eq_encode_of_decodeLast (h : decodeLast? a b c d = some group) :
    [a, b, c, d] = encode group := by
  by_cases hc : c = pad
  · simp only [decodeLast?, if_pos hc, Option.bind_eq_bind, Option.bind_eq_some_iff,
      value?_eq_some_iff, Option.ite_none_right_eq_some, Option.some.injEq] at h
    obtain ⟨v, ⟨hv, rfl⟩, w, ⟨hw, rfl⟩, ⟨rfl, hzero⟩, rfl⟩ := h
    have hfirst := toNat_octet (show v * 4 + w / 16 < 256 by omega)
    simp only [encode, hfirst, hc, List.cons.injEq, and_true]
    exact ⟨congrArg digit (by omega), congrArg digit (by omega)⟩
  · by_cases hd : d = pad
    · simp only [decodeLast?, if_neg hc, if_pos hd, Option.bind_eq_bind, Option.bind_eq_some_iff,
        value?_eq_some_iff, Option.ite_none_right_eq_some, Option.some.injEq] at h
      obtain ⟨v, ⟨hv, rfl⟩, w, ⟨hw, rfl⟩, x, ⟨hx, rfl⟩, hzero, rfl⟩ := h
      have hfirst := toNat_octet (show v * 4 + w / 16 < 256 by omega)
      have hsecond := toNat_octet (show w % 16 * 16 + x / 4 < 256 by omega)
      simp only [encode, hfirst, hsecond, hd, List.cons.injEq, and_true]
      exact ⟨congrArg digit (by omega), congrArg digit (by omega), congrArg digit (by omega)⟩
    · rw [decodeLast?_of_ne_pad hc hd, decodeGroup?_eq_some_iff] at h
      obtain ⟨x, y, z, rfl, hencode⟩ := h
      exact hencode

theorem decodeLast?_one (x : UInt8) :
    decodeLast? (digit (x.toNat / 4)) (digit (x.toNat % 4 * 16)) pad pad = some [x] := by
  have hx := x.toNat_lt
  simp only [decodeLast?, value?_digit _ (show x.toNat / 4 < 64 by omega),
    value?_digit _ (show x.toNat % 4 * 16 < 64 by omega), Option.bind_eq_bind, Option.bind_some,
    if_true, true_and]
  rw [if_pos (by omega), octet_eq (show _ = x.toNat by omega)]

theorem decodeLast?_two (x y : UInt8) :
    decodeLast? (digit (x.toNat / 4)) (digit (x.toNat % 4 * 16 + y.toNat / 16))
      (digit (y.toNat % 16 * 4)) pad = some [x, y] := by
  have hx := x.toNat_lt
  have hy := y.toNat_lt
  have hlast : y.toNat % 16 * 4 < 64 := by omega
  simp only [decodeLast?, value?_digit _ (show x.toNat / 4 < 64 by omega),
    value?_digit _ (show x.toNat % 4 * 16 + y.toNat / 16 < 64 by omega), value?_digit _ hlast,
    if_neg (digit_ne_pad hlast), Option.bind_eq_bind, Option.bind_some, if_true]
  rw [if_pos (by omega), octet_eq (show _ = x.toNat by omega), octet_eq (show _ = y.toNat by omega)]

/-! ## Groups in a row -/

theorem encode_cons_cons_cons (x y z : UInt8) (rest : List UInt8) :
    encode (x :: y :: z :: rest) = encode [x, y, z] ++ encode rest := rfl

theorem encode_ne_nil (octet : UInt8) (rest : List UInt8) : encode (octet :: rest) ≠ [] := by
  match rest with
  | [] | [_] | _ :: _ :: _ => simp [encode]

theorem exists_of_decodeGroups (h : decodeGroups octets text = some out) :
    ∃ read : List UInt8, out = octets ++ read ∧ text = encode read := by
  fun_induction decodeGroups octets text with
  | case1 octets => exact ⟨[], by simpa using h.symm, rfl⟩
  | case2 octets a b c d group hgroup =>
    exact ⟨group, (Option.some.inj h).symm, eq_encode_of_decodeLast hgroup⟩
  | case3 octets a b c d hgroup => cases h
  | case4 octets a b c d rest hrest group hgroup ih =>
    obtain ⟨read, hout, hencode⟩ := ih h
    obtain ⟨x, y, z, rfl, hfirst⟩ := decodeGroup?_eq_some_iff.1 hgroup
    refine ⟨x :: y :: z :: read, by simpa using hout, ?_⟩
    rw [encode_cons_cons_cons, ← hfirst, hencode]
    rfl
  | case5 octets a b c d rest hrest hgroup => cases h
  | case6 octets text hnil hlast hgroup => cases h

theorem decodeGroups_encode (octets : Octets) (read : List UInt8) :
    decodeGroups octets (encode read) = some (octets ++ read) := by
  fun_induction encode read generalizing octets with
  | case1 => simp [decodeGroups]
  | case2 x => simp only [decodeGroups, decodeLast?_one]
  | case3 x y => simp only [decodeGroups, decodeLast?_two]
  | case4 x y z rest ih =>
    have hgroup := decodeGroup?_eq_some_iff.2 ⟨x, y, z, rfl, rfl⟩
    cases rest with
    | nil =>
      have hy := y.toNat_lt
      have hz := z.toNat_lt
      have hlast := decodeLast?_of_ne_pad (a := digit (x.toNat / 4))
        (b := digit (x.toNat % 4 * 16 + y.toNat / 16))
        (digit_ne_pad (show y.toNat % 16 * 4 + z.toNat / 64 < 64 by omega))
        (digit_ne_pad (show z.toNat % 64 < 64 by omega))
      simp only [encode, decodeGroups, hlast, hgroup]
    | cons next rest =>
      -- more characters follow, so this is not the last group
      obtain ⟨code, codes, hcodes⟩ := List.exists_cons_of_ne_nil (encode_ne_nil next rest)
      have hrest := ih (octets ++ [x, y, z])
      rw [hcodes] at hrest ⊢
      simp only [decodeGroups, hgroup, hrest]
      simp

/-! ## White space -/

/-- What holds of the padding and of all digits holds of every character of a written form. -/
theorem forall_mem_encode {P : UInt8 → Prop} (hpad : P pad)
    (hdigit : ∀ value < 64, P (digit value)) (read : List UInt8) :
    ∀ code ∈ encode read, P code := by
  fun_induction encode read with
  | case1 => simp
  | case2 x =>
    have hx := x.toNat_lt
    simp only [List.forall_mem_cons]
    exact ⟨hdigit _ (by omega), hdigit _ (by omega), hpad, hpad, by simp⟩
  | case3 x y =>
    have hx := x.toNat_lt
    have hy := y.toNat_lt
    simp only [List.forall_mem_cons]
    exact ⟨hdigit _ (by omega), hdigit _ (by omega), hdigit _ (by omega), hpad, by simp⟩
  | case4 x y z rest ih =>
    have hx := x.toNat_lt
    have hy := y.toNat_lt
    have hz := z.toNat_lt
    simp only [List.forall_mem_cons]
    exact ⟨hdigit _ (by omega), hdigit _ (by omega), hdigit _ (by omega), hdigit _ (by omega), ih⟩

theorem not_mem_blankOctets (read : List UInt8) : ∀ code ∈ encode read, code ∉ blankOctets :=
  forall_mem_encode (by decide) (by decide) read

/-- What is read as octets is their written form with white space put in. -/
theorem decode?_eq_some_iff {contents : Octets} :
    decode? contents = some octets ↔
      IsSpaced blankOctets (encode octets.toList) contents.toList := by
  rw [isSpaced_iff_filter_eq (not_mem_blankOctets _), decode?, filter_not_isBlankOctet]
  constructor
  · intro h
    obtain ⟨read, rfl, hencode⟩ := exists_of_decodeGroups h
    simpa using hencode
  · intro h
    rw [h, decodeGroups_encode]
    simp

/-- One octet more in the last group each time. -/
example : encode [0x4d] = [0x54, 0x51, 0x3d, 0x3d] ∧
    encode [0x4d, 0x61] = [0x54, 0x57, 0x45, 0x3d] ∧
      encode [0x4d, 0x61, 0x6e] = [0x54, 0x57, 0x46, 0x75] := by
  decide

end DnsMatch.Text.Base64
