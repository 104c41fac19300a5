import DependencyLint.Text.Raw
import Mathlib.Data.List.Forall2
import Mathlib.Tactic.SplitIfs

/-!
# Text as bytes

**Lemma (`strictText_eq_some_iff`).** A byte sequence is read as a text exactly if it is the bytes of
this text.

The bytes of a character are a first byte and as many followers as it asks for, each in the range
that the first byte leaves to it (`exists_followers`). So the reader takes them off together, and the
character that they spell is the one they come from. Nothing else is taken for a character
(`append_of_decodeOne`).
-/

namespace DependencyLint.Text.Utf8

/-! ## The bytes of an array -/

theorem toList_loop {bytes : ByteArray} {back : List UInt8} (front seen : List UInt8)
    (hbytes : bytes.data.toList = front ++ back) :
    ByteArray.toList.loop bytes front.length seen = seen.reverse ++ back := by
  have hsize : bytes.size = front.length + back.length := by
    rw [← List.length_append, ← hbytes]
    rfl
  induction back generalizing front seen with
  | nil =>
    rw [ByteArray.toList.loop, if_neg (by simp [hsize]), List.append_nil]
  | cons b back ih =>
    have hget : bytes.get! front.length = b := by
      show bytes.data[front.length]! = b
      rw [getElem!_def, ← Array.getElem?_toList, hbytes]
      simp
    have hlater := ih (front ++ [b]) (b :: seen) (by simpa using hbytes) (by simp [hsize]; omega)
    rw [ByteArray.toList.loop, if_pos (by simp [hsize]), hget]
    simpa using hlater

theorem toList_eq_data (bytes : ByteArray) : bytes.toList = bytes.data.toList :=
  toList_loop [] [] (List.nil_append _).symm

theorem toList_data_toUTF8 (text : String) :
    text.toUTF8.data.toList = text.toList.flatMap String.utf8EncodeChar := by
  have hbytes : text.toUTF8 = (text.toList.flatMap String.utf8EncodeChar).toByteArray :=
    String.utf8Encode_toList.symm
  rw [hbytes, List.toList_data_toByteArray]

theorem toList_toUTF8 (text : String) :
    text.toUTF8.toList = text.toList.flatMap String.utf8EncodeChar := by
  rw [toList_eq_data, toList_data_toUTF8]

/-! ## The bytes of a character -/

/-- Each byte lies in its range. -/
def Within (ranges : List (UInt8 × UInt8)) (bytes : List UInt8) : Prop :=
  List.Forall₂ (fun range b => range.1 ≤ b ∧ b ≤ range.2) ranges bytes

theorem Within.takeWithin_append {ranges : List (UInt8 × UInt8)} {bytes : List UInt8}
    (h : Within ranges bytes) (rest : List UInt8) :
    takeWithin ranges (bytes ++ rest) = (bytes, rest) := by
  induction h with
  | nil => rw [List.nil_append, takeWithin]; simp
  | cons hb _ ih => rw [List.cons_append, takeWithin, if_pos hb, ih]

theorem followers_ofNat {n : Nat} (h : n < 256) : followers (.ofNat n) =
    if n < 0x80 then some []
    else if n < 0xC2 then none
    else if n < 0xE0 then some [(0x80, 0xBF)]
    else if n = 0xE0 then some [(0xA0, 0xBF), (0x80, 0xBF)]
    else if n = 0xED then some [(0x80, 0x9F), (0x80, 0xBF)]
    else if n < 0xF0 then some [(0x80, 0xBF), (0x80, 0xBF)]
    else if n = 0xF0 then some [(0x90, 0xBF), (0x80, 0xBF), (0x80, 0xBF)]
    else if n < 0xF4 then some [(0x80, 0xBF), (0x80, 0xBF), (0x80, 0xBF)]
    else if n = 0xF4 then some [(0x80, 0x8F), (0x80, 0xBF), (0x80, 0xBF)]
    else none := by
  simp only [followers, UInt8.lt_iff_toNat_lt, ← UInt8.toNat_inj, UInt8.toNat_ofNat_of_lt' h]
  rfl

theorem within_ofNat (low high : Nat) {n : Nat} (hlow : low ≤ n) (hhigh : n ≤ high)
    (h : high < UInt8.size) :
    UInt8.ofNat low ≤ UInt8.ofNat n ∧ UInt8.ofNat n ≤ UInt8.ofNat high := by
  simp only [UInt8.le_iff_toNat_le]
  rw [UInt8.toNat_ofNat_of_lt' h, UInt8.toNat_ofNat_of_lt' (by omega),
    UInt8.toNat_ofNat_of_lt' (by omega)]
  exact ⟨hlow, hhigh⟩

/-- A byte that can follow any first byte but the smallest and the largest. -/
theorem within_follower (n : Nat) :
    (0x80 : UInt8) ≤ .ofNat (n % 64 + 128) ∧ .ofNat (n % 64 + 128) ≤ (0xBF : UInt8) :=
  within_ofNat 0x80 0xBF (by omega) (by omega) (by decide)

/-- The second of three bytes: nothing that two bytes could spell, and no half of a pair. -/
theorem second_of_three {v : Nat} (hlow : 0x7FF < v) (hhigh : v ≤ 0xFFFF)
    (hvalid : v < 0xD800 ∨ 0xDFFF < v) :
    ∃ range : UInt8 × UInt8, followers (.ofNat (v / 4096 % 16 + 224)) = some [range, (0x80, 0xBF)] ∧
      range.1 ≤ .ofNat (v / 64 % 64 + 128) ∧ .ofNat (v / 64 % 64 + 128) ≤ range.2 := by
  rw [followers_ofNat (by omega), if_neg (by omega), if_neg (by omega), if_neg (by omega)]
  by_cases hleast : v / 4096 % 16 + 224 = 0xE0
  · rw [if_pos hleast]
    exact ⟨_, rfl, within_ofNat 0xA0 0xBF (by omega) (by omega) (by decide)⟩
  rw [if_neg hleast]
  by_cases hpair : v / 4096 % 16 + 224 = 0xED
  · rw [if_pos hpair]
    exact ⟨_, rfl, within_ofNat 0x80 0x9F (by omega) (by omega) (by decide)⟩
  · rw [if_neg hpair, if_pos (by omega)]
    exact ⟨_, rfl, within_follower _⟩

/-- The second of four bytes: nothing that three bytes could spell, and nothing too large. -/
theorem second_of_four {v : Nat} (hlow : 0xFFFF < v) (hhigh : v < 0x110000) :
    ∃ range : UInt8 × UInt8,
      followers (.ofNat (v / 262144 % 8 + 240)) = some [range, (0x80, 0xBF), (0x80, 0xBF)] ∧
      range.1 ≤ .ofNat (v / 4096 % 64 + 128) ∧ .ofNat (v / 4096 % 64 + 128) ≤ range.2 := by
  rw [followers_ofNat (by omega), if_neg (by omega), if_neg (by omega), if_neg (by omega),
    if_neg (by omega), if_neg (by omega), if_neg (by omega)]
  by_cases hleast : v / 262144 % 8 + 240 = 0xF0
  · rw [if_pos hleast]
    exact ⟨_, rfl, within_ofNat 0x90 0xBF (by omega) (by omega) (by decide)⟩
  rw [if_neg hleast]
  by_cases hmost : v / 262144 % 8 + 240 < 0xF4
  · rw [if_pos hmost]
    exact ⟨_, rfl, within_follower _⟩
  · rw [if_neg hmost, if_pos (by omega)]
    exact ⟨_, rfl, within_ofNat 0x80 0x8F (by omega) (by omega) (by decide)⟩

/-- **A character is spelled by a first byte and the bytes that it asks for.** -/
theorem exists_followers (c : Char) :
    ∃ first tail ranges, String.utf8EncodeChar c = first :: tail ∧ followers first = some ranges ∧
      Within ranges tail ∧ assemble first tail = c := by
  have hchar : ∀ n, n = c.val.toNat → Char.ofNat n = c := by
    intro n hn
    rw [hn]
    exact Char.ofNat_toNat c
  have hvalid : c.val.toNat < 0xD800 ∨ 0xDFFF < c.val.toNat ∧ c.val.toNat < 0x110000 := c.valid
  unfold String.utf8EncodeChar
  dsimp only
  generalize c.val.toNat = v at hchar hvalid ⊢
  split_ifs with hone htwo hthree
  · refine ⟨_, [], [], rfl, ?_, .nil, hchar _ ?_⟩
    · rw [followers_ofNat (by omega), if_pos (by omega)]
    · simp
      omega
  · refine ⟨_, _, [(0x80, 0xBF)], rfl, ?_, .cons (within_follower v) .nil, hchar _ ?_⟩
    · rw [followers_ofNat (by omega), if_neg (by omega), if_neg (by omega), if_pos (by omega)]
    · simp
      omega
  · obtain ⟨range, hranges, hsecond⟩ := second_of_three (by omega) hthree (by omega : v < 0xD800 ∨ _)
    refine ⟨_, _, _, rfl, hranges, .cons hsecond (.cons (within_follower v) .nil), hchar _ ?_⟩
    simp
    omega
  · obtain ⟨range, hranges, hsecond⟩ := second_of_four (by omega) (by omega : v < 0x110000)
    refine ⟨_, _, _, rfl, hranges,
      .cons hsecond (.cons (within_follower _) (.cons (within_follower v) .nil)), hchar _ ?_⟩
    simp
    omega

/-! ## Reading a text back -/

theorem decodeOnto_flatMap (chars : List Char) (seen : List (Option Char)) :
    decodeOnto seen (chars.flatMap String.utf8EncodeChar) = seen.reverse ++ chars.map some := by
  induction chars generalizing seen with
  | nil => rw [List.flatMap_nil, decodeOnto, List.map_nil, List.append_nil]
  | cons c chars ih =>
    obtain ⟨first, tail, ranges, hbytes, hranges, hwithin, hchar⟩ := exists_followers c
    have hlength : tail.length = ranges.length := hwithin.length_eq.symm
    have hone : decodeOne first (tail ++ chars.flatMap String.utf8EncodeChar) =
        (some c, chars.flatMap String.utf8EncodeChar) := by
      simp [decodeOne, hranges, hwithin.takeWithin_append, hlength, hchar]
    rw [List.flatMap_cons, hbytes, List.cons_append, decodeOnto, hone, ih]
    simp

theorem decode_flatMap (chars : List Char) :
    decode (chars.flatMap String.utf8EncodeChar) = chars.map some := by
  rw [decode, decodeOnto_flatMap, List.reverse_nil, List.nil_append]

theorem mapM_id_map_some (chars : List Char) : (chars.map some).mapM id = some chars := by
  rw [List.mapM_map]
  exact (List.mapM_pure (f := id)).trans (congrArg some (List.map_id _))

theorem strictText_flatMap (chars : List Char) :
    strictText (chars.flatMap String.utf8EncodeChar) = some (String.ofList chars) := by
  rw [strictText, decode_flatMap, mapM_id_map_some, Option.map_some]

theorem lossyText_flatMap (chars : List Char) :
    lossyText (chars.flatMap String.utf8EncodeChar) = String.ofList chars := by
  rw [lossyText, decode_flatMap, List.map_map]
  exact congrArg String.ofList (List.map_id chars)

/-- **Every text is read back from its bytes.** -/
theorem strict_toUTF8 (text : String) : strict text.toUTF8 = some text := by
  rw [strict, toList_toUTF8, strictText_flatMap, String.ofList_toList]

/-! ## Bytes that spell a text -/

theorem takeWithin_eq {ranges : List (UInt8 × UInt8)} {bytes taken left : List UInt8}
    (h : takeWithin ranges bytes = (taken, left)) :
    bytes = taken ++ left ∧ (taken.length = ranges.length → Within ranges taken) := by
  induction ranges generalizing bytes taken with
  | nil =>
    rw [takeWithin] at h
    · cases h
      exact ⟨rfl, fun _ => .nil⟩
    · simp
  | cons range ranges ih =>
    cases bytes with
    | nil =>
      rw [takeWithin] at h
      · cases h
        exact ⟨rfl, fun hlength => by simp at hlength⟩
      · simp
    | cons b rest =>
      rw [takeWithin] at h
      split_ifs at h with hb
      · obtain ⟨more, left', hmore⟩ : ∃ more left', takeWithin ranges rest = (more, left') := ⟨_, _, rfl⟩
        rw [hmore] at h
        cases h
        obtain ⟨hrest, hwithin⟩ := ih hmore
        refine ⟨by rw [hrest, List.cons_append], fun hlength => .cons hb (hwithin ?_)⟩
        simpa using hlength
      · cases h
        exact ⟨rfl, fun hlength => by simp at hlength⟩

theorem utf8EncodeChar_ofNat {v : Nat} (h : v.isValidChar) : String.utf8EncodeChar (Char.ofNat v) =
    if v ≤ 0x7F then [.ofNat v]
    else if v ≤ 0x7FF then [.ofNat (v / 64 % 32 + 192), .ofNat (v % 64 + 128)]
    else if v ≤ 0xFFFF then
      [.ofNat (v / 4096 % 16 + 224), .ofNat (v / 64 % 64 + 128), .ofNat (v % 64 + 128)]
    else
      [.ofNat (v / 262144 % 8 + 240), .ofNat (v / 4096 % 64 + 128), .ofNat (v / 64 % 64 + 128),
        .ofNat (v % 64 + 128)] := by
  have hval : (Char.ofNat v).val.toNat = v := by
    rw [Char.ofNat, dif_pos h]
    rfl
  unfold String.utf8EncodeChar
  dsimp only
  rw [hval]

theorem encode_two {n b : Nat} (hn : 0xC2 ≤ n ∧ n < 0xE0) (hb : 0x80 ≤ b ∧ b ≤ 0xBF) :
    String.utf8EncodeChar (Char.ofNat (n % 32 * 64 + b % 64)) = [.ofNat n, .ofNat b] := by
  have hfirst : (n % 32 * 64 + b % 64) / 64 % 32 + 192 = n := by omega
  have hsecond : (n % 32 * 64 + b % 64) % 64 + 128 = b := by omega
  rw [utf8EncodeChar_ofNat (Or.inl (by omega)), if_neg (by omega), if_pos (by omega), hfirst, hsecond]

theorem encode_three {n b c : Nat} (hn : 0xE0 ≤ n ∧ n < 0xF0) (hb : 0x80 ≤ b ∧ b ≤ 0xBF)
    (hc : 0x80 ≤ c ∧ c ≤ 0xBF) (hleast : n = 0xE0 → 0xA0 ≤ b) (hpair : n = 0xED → b ≤ 0x9F) :
    String.utf8EncodeChar (Char.ofNat ((n % 16 * 64 + b % 64) * 64 + c % 64)) =
      [.ofNat n, .ofNat b, .ofNat c] := by
  have hfirst : ((n % 16 * 64 + b % 64) * 64 + c % 64) / 4096 % 16 + 224 = n := by omega
  have hsecond : ((n % 16 * 64 + b % 64) * 64 + c % 64) / 64 % 64 + 128 = b := by omega
  have hthird : ((n % 16 * 64 + b % 64) * 64 + c % 64) % 64 + 128 = c := by omega
  have hvalid : Nat.isValidChar ((n % 16 * 64 + b % 64) * 64 + c % 64) := by
    unfold Nat.isValidChar
    omega
  rw [utf8EncodeChar_ofNat hvalid, if_neg (by omega), if_neg (by omega), if_pos (by omega), hfirst,
    hsecond, hthird]

theorem encode_four {n b c d : Nat} (hn : 0xF0 ≤ n ∧ n ≤ 0xF4) (hb : 0x80 ≤ b ∧ b ≤ 0xBF)
    (hc : 0x80 ≤ c ∧ c ≤ 0xBF) (hd : 0x80 ≤ d ∧ d ≤ 0xBF) (hleast : n = 0xF0 → 0x90 ≤ b)
    (hmost : n = 0xF4 → b ≤ 0x8F) :
    String.utf8EncodeChar (Char.ofNat (((n % 8 * 64 + b % 64) * 64 + c % 64) * 64 + d % 64)) =
      [.ofNat n, .ofNat b, .ofNat c, .ofNat d] := by
  generalize hv : ((n % 8 * 64 + b % 64) * 64 + c % 64) * 64 + d % 64 = v
  have hvalid : v.isValidChar := Or.inr ⟨by omega, by omega⟩
  have hfirst : v / 262144 % 8 + 240 = n := by omega
  have hsecond : v / 4096 % 64 + 128 = b := by omega
  have hthird : v / 64 % 64 + 128 = c := by omega
  have hfourth : v % 64 + 128 = d := by omega
  rw [utf8EncodeChar_ofNat hvalid, if_neg (by omega), if_neg (by omega), if_neg (by omega), hfirst,
    hsecond, hthird, hfourth]

section Assemble

variable {first low high : UInt8} {taken : List UInt8}

theorem Within.exists_cons {range : UInt8 × UInt8} {ranges : List (UInt8 × UInt8)}
    (h : Within (range :: ranges) taken) :
    ∃ b rest, taken = b :: rest ∧ Within ranges rest ∧ range.1.toNat ≤ b.toNat ∧
      b.toNat ≤ range.2.toNat := by
  cases h with
  | cons hb h =>
    exact ⟨_, _, rfl, h, UInt8.le_iff_toNat_le.1 hb.1, UInt8.le_iff_toNat_le.1 hb.2⟩

theorem encode_assemble_one (hwithin : Within [] taken) (hfirst : first.toNat < 0x80) :
    String.utf8EncodeChar (assemble first taken) = first :: taken := by
  cases hwithin
  have hvalid : first.toNat.isValidChar := Or.inl (by omega)
  show String.utf8EncodeChar (Char.ofNat first.toNat) = _
  rw [utf8EncodeChar_ofNat hvalid, if_pos (by omega), UInt8.ofNat_toNat]

theorem encode_assemble_two (hwithin : Within [(0x80, 0xBF)] taken)
    (hfirst : 0xC2 ≤ first.toNat ∧ first.toNat < 0xE0) :
    String.utf8EncodeChar (assemble first taken) = first :: taken := by
  obtain ⟨b, _, rfl, hnil, hb⟩ := hwithin.exists_cons
  cases hnil
  have hbytes := encode_two hfirst hb
  rwa [UInt8.ofNat_toNat, UInt8.ofNat_toNat] at hbytes

theorem encode_assemble_three (hwithin : Within [(low, high), (0x80, 0xBF)] taken)
    (hfirst : 0xE0 ≤ first.toNat ∧ first.toNat < 0xF0) (hrange : 0x80 ≤ low.toNat ∧ high.toNat ≤ 0xBF)
    (hleast : first.toNat = 0xE0 → 0xA0 ≤ low.toNat) (hpair : first.toNat = 0xED → high.toNat ≤ 0x9F) :
    String.utf8EncodeChar (assemble first taken) = first :: taken := by
  obtain ⟨b, _, rfl, hrest, hlow, hhigh⟩ := hwithin.exists_cons
  obtain ⟨c, _, rfl, hnil, hc⟩ := hrest.exists_cons
  cases hnil
  dsimp only at hlow hhigh
  have hb : 0x80 ≤ b.toNat ∧ b.toNat ≤ 0xBF := by omega
  have hbytes := encode_three hfirst hb hc (by omega) (by omega)
  rwa [UInt8.ofNat_toNat, UInt8.ofNat_toNat, UInt8.ofNat_toNat] at hbytes

theorem encode_assemble_four (hwithin : Within [(low, high), (0x80, 0xBF), (0x80, 0xBF)] taken)
    (hfirst : 0xF0 ≤ first.toNat ∧ first.toNat ≤ 0xF4) (hrange : 0x80 ≤ low.toNat ∧ high.toNat ≤ 0xBF)
    (hleast : first.toNat = 0xF0 → 0x90 ≤ low.toNat) (hmost : first.toNat = 0xF4 → high.toNat ≤ 0x8F) :
    String.utf8EncodeChar (assemble first taken) = first :: taken := by
  obtain ⟨b, _, rfl, hrest, hlow, hhigh⟩ := hwithin.exists_cons
  obtain ⟨c, _, rfl, hrest, hc⟩ := hrest.exists_cons
  obtain ⟨d, _, rfl, hnil, hd⟩ := hrest.exists_cons
  cases hnil
  dsimp only at hlow hhigh
  have hb : 0x80 ≤ b.toNat ∧ b.toNat ≤ 0xBF := by omega
  have hbytes := encode_four hfirst hb hc hd (by omega) (by omega)
  rwa [UInt8.ofNat_toNat, UInt8.ofNat_toNat, UInt8.ofNat_toNat, UInt8.ofNat_toNat] at hbytes

/-- **Bytes that spell a character are the bytes of this character.** -/
theorem utf8EncodeChar_assemble {ranges : List (UInt8 × UInt8)} (h : followers first = some ranges)
    (hwithin : Within ranges taken) :
    String.utf8EncodeChar (assemble first taken) = first :: taken := by
  have hfollowers := followers_ofNat first.toNat_lt
  rw [UInt8.ofNat_toNat, h] at hfollowers
  split_ifs at hfollowers with hone hnone htwo hleast hpair hthree hleast' hfour hmost <;>
    cases hfollowers
  · exact encode_assemble_one hwithin hone
  · exact encode_assemble_two hwithin (by omega)
  · exact encode_assemble_three hwithin (by omega) (by decide) (fun _ => by decide) (by omega)
  · exact encode_assemble_three hwithin (by omega) (by decide) (by omega) (fun _ => by decide)
  · exact encode_assemble_three hwithin (by omega) (by decide) (by omega) (by omega)
  · exact encode_assemble_four hwithin (by omega) (by decide) (fun _ => by decide) (by omega)
  · exact encode_assemble_four hwithin (by omega) (by decide) (by omega) (by omega)
  · exact encode_assemble_four hwithin (by omega) (by decide) (by omega) (fun _ => by decide)

end Assemble

theorem append_of_decodeOne {first : UInt8} {rest left : List UInt8} {c : Char}
    (h : decodeOne first rest = (some c, left)) :
    String.utf8EncodeChar c ++ left = first :: rest := by
  unfold decodeOne at h
  cases hranges : followers first with
  | none =>
    rw [hranges] at h
    cases h
  | some ranges =>
    obtain ⟨taken, left', htaken⟩ : ∃ taken left', takeWithin ranges rest = (taken, left') :=
      ⟨_, _, rfl⟩
    rw [hranges] at h
    simp only [htaken, Prod.mk.injEq] at h
    obtain ⟨hchar, rfl⟩ := h
    split_ifs at hchar with hlength
    cases hchar
    obtain ⟨rfl, hwithin⟩ := takeWithin_eq htaken
    rw [utf8EncodeChar_assemble hranges (hwithin hlength), List.cons_append]

theorem mapM_id_append {a b : List (Option Char)} {chars : List Char}
    (h : (a ++ b).mapM id = some chars) :
    ∃ front back, a.mapM id = some front ∧ b.mapM id = some back ∧ chars = front ++ back := by
  rw [List.mapM_append] at h
  obtain ⟨front, hfront, h⟩ := Option.bind_eq_some_iff.1 h
  obtain ⟨back, hback, h⟩ := Option.bind_eq_some_iff.1 h
  cases h
  exact ⟨front, back, hfront, hback, rfl⟩

/-- What is read after the characters `seen` spells the rest of the bytes. -/
theorem exists_of_decodeOnto {seen : List (Option Char)} {bytes : List UInt8} {chars : List Char}
    (h : (decodeOnto seen bytes).mapM id = some chars) :
    ∃ front back, seen.reverse.mapM id = some front ∧ chars = front ++ back ∧
      bytes = back.flatMap String.utf8EncodeChar := by
  fun_induction decodeOnto seen bytes generalizing chars with
  | case1 seen => exact ⟨chars, [], h, (List.append_nil _).symm, rfl⟩
  | case2 seen first rest ih =>
    obtain ⟨front, back, hfront, rfl, hrest⟩ := ih h
    rw [List.reverse_cons] at hfront
    obtain ⟨front', last, hfront', hlast, rfl⟩ := mapM_id_append hfront
    obtain ⟨c, hc, hlast⟩ := Option.bind_eq_some_iff.1 hlast
    cases hlast
    refine ⟨front', c :: back, hfront', by simp, ?_⟩
    rw [List.flatMap_cons, ← hrest]
    exact (append_of_decodeOne (Prod.ext hc rfl)).symm

/-- **A byte sequence is read as a text exactly if it is the bytes of this text.** -/
theorem strictText_eq_some_iff {bytes : List UInt8} {text : String} :
    strictText bytes = some text ↔ bytes = text.toList.flatMap String.utf8EncodeChar := by
  constructor
  · intro h
    obtain ⟨chars, hchars, rfl⟩ := Option.map_eq_some_iff.1 h
    obtain ⟨front, back, hfront, rfl, hbytes⟩ := exists_of_decodeOnto hchars
    cases hfront
    rw [hbytes, String.toList_ofList]
    rfl
  · rintro rfl
    rw [strictText_flatMap, String.ofList_toList]

end DependencyLint.Text.Utf8

namespace DependencyLint.RawText

/-! ## Texts of the operating system -/

theorem bytes_ofText (text : String) :
    (ofText text).bytes = text.toList.flatMap String.utf8EncodeChar :=
  Text.Utf8.toList_data_toUTF8 text

theorem text?_eq_some_iff {raw : RawText} {text : String} : raw.text? = some text ↔ raw = ofText text := by
  rw [text?, Text.Utf8.strictText_eq_some_iff, ← bytes_ofText]
  exact ⟨congrArg mk, congrArg bytes⟩

@[simp] theorem shown_ofText (text : String) : (ofText text).shown = text := by
  rw [shown, bytes_ofText, Text.Utf8.lossyText_flatMap, String.ofList_toList]

theorem ofText_injective : Function.Injective ofText := by
  intro a b h
  have htext := congrArg shown h
  rwa [shown_ofText, shown_ofText] at htext

@[simp] theorem ofText_inj {a b : String} : ofText a = ofText b ↔ a = b := ofText_injective.eq_iff

end DependencyLint.RawText
