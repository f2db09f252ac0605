import Mathlib.Data.List.Forall2
import StackLexer.Proofs.Text.ByteOrder
import StackLexer.Text.Utf8

/-! Bytes are read as a text just when they are its UTF-8.
The first byte of a character fixes how many follow and within which bounds. These bounds keep out every
byte that is not part of a character, forms that are longer than they need to be, surrogates, and numbers
that are no characters, so what is read is written back as it was. -/

namespace StackLexer.Text.Utf8

def Within (bounds : UInt8 × UInt8) (b : UInt8) : Prop :=
  bounds.1.toNat ≤ b.toNat ∧ b.toNat ≤ bounds.2.toNat

def number (n : Nat) (tail : List UInt8) : Nat :=
  tail.foldl (fun n b => n * 64 + (b.toNat - 0x80)) n

theorem number_nil (n : Nat) : number n [] = n := by
  rw [number, List.foldl_nil]

theorem number_cons (n : Nat) (b : UInt8) (tail : List UInt8) :
    number n (b :: tail) = number (n * 64 + (b.toNat - 0x80)) tail := by
  rw [number, number, List.foldl_cons]

theorem finish_append {bounds : List (UInt8 × UInt8)} {tail : List UInt8}
    (fits : List.Forall₂ Within bounds tail) (n : Nat) (rest : List UInt8) :
    finish n bounds (tail ++ rest) = (some (Char.ofNat (number n tail)), rest) := by
  induction fits generalizing n with
  | nil => rw [List.nil_append, finish, number_nil]
  | @cons bound b _ _ fit _ ih =>
    have within : (bound.1 ≤ b && b ≤ bound.2) = true := by
      simpa [Within, UInt8.le_iff_toNat_le] using fit
    rw [List.cons_append, finish, if_pos within, ih, number_cons]

theorem finish_eq_some {bounds : List (UInt8 × UInt8)} {n : Nat} {bytes rest : List UInt8} {c : Char}
    (done : finish n bounds bytes = (some c, rest)) :
    ∃ tail, List.Forall₂ Within bounds tail ∧ bytes = tail ++ rest ∧ c = Char.ofNat (number n tail) := by
  fun_induction finish n bounds bytes with
  | case1 n bytes =>
    obtain ⟨first, rfl⟩ := Prod.mk.inj done
    exact ⟨[], .nil, rfl, by rw [number_nil, Option.some.inj first]⟩
  | case2 => simp at done
  | case3 n low high bounds b bytes fits ih =>
    obtain ⟨tail, all, rfl, rfl⟩ := ih done
    refine ⟨b :: tail, .cons (by simpa [Within, UInt8.le_iff_toNat_le] using fits) all, rfl, ?_⟩
    rw [number_cons]
  | case4 => simp at done

theorem toNat_ofNat {v : Nat} (valid : v.isValidChar) : (Char.ofNat v).val.toNat = v := by
  rw [Char.ofNat, dif_pos valid]
  rfl

theorem ofNat_eq_iff {v : Nat} {b : UInt8} (small : v < 256) : UInt8.ofNat v = b ↔ v = b.toNat := by
  rw [← UInt8.toNat_inj, UInt8.toNat_ofNat_of_lt' small]

theorem encode_two {v : Nat} {a b : UInt8} (low : 0x80 ≤ v) (high : v < 0x800)
    (first : a.toNat = v / 64 + 0xc0) (second : b.toNat = v % 64 + 0x80) :
    String.utf8EncodeChar (Char.ofNat v) = [a, b] := by
  have valid : v.isValidChar := .inl (by omega)
  rw [String.utf8EncodeChar, toNat_ofNat valid, if_neg (by omega), if_pos (by omega)]
  congr 2 <;> rw [ofNat_eq_iff (by omega)] <;> omega

theorem encode_three {v : Nat} {a b c : UInt8} (low : 0x800 ≤ v) (high : v < 0x10000)
    (real : v < 0xd800 ∨ 0xdfff < v)
    (first : a.toNat = v / 4096 + 0xe0) (second : b.toNat = v / 64 % 64 + 0x80)
    (third : c.toNat = v % 64 + 0x80) : String.utf8EncodeChar (Char.ofNat v) = [a, b, c] := by
  have valid : v.isValidChar := real.imp_right (⟨·, by omega⟩)
  rw [String.utf8EncodeChar, toNat_ofNat valid, if_neg (by omega), if_neg (by omega), if_pos (by omega)]
  congr 3 <;> rw [ofNat_eq_iff (by omega)] <;> omega

theorem encode_four {v : Nat} {a b c d : UInt8} (low : 0x10000 ≤ v) (high : v < 0x110000)
    (first : a.toNat = v / 262144 + 0xf0) (second : b.toNat = v / 4096 % 64 + 0x80)
    (third : c.toNat = v / 64 % 64 + 0x80) (fourth : d.toNat = v % 64 + 0x80) :
    String.utf8EncodeChar (Char.ofNat v) = [a, b, c, d] := by
  have valid : v.isValidChar := .inr (by omega)
  rw [String.utf8EncodeChar, toNat_ofNat valid, if_neg (by omega), if_neg (by omega), if_neg (by omega)]
  congr 4 <;> rw [ofNat_eq_iff (by omega)] <;> omega

theorem encode_number {b : UInt8} {n : Nat} {bounds : List (UInt8 × UInt8)} {tail : List UInt8}
    (leads : lead? b = some (n, bounds)) (fits : List.Forall₂ Within bounds tail) :
    String.utf8EncodeChar (Char.ofNat (number n tail)) = b :: tail := by
  unfold lead? at leads
  simp only [UInt8.lt_iff_toNat_lt, ← UInt8.toNat_inj, UInt8.reduceToNat] at leads
  split_ifs at leads <;> obtain ⟨rfl, rfl⟩ := Prod.mk.inj (Option.some.inj leads)
  all_goals
    simp only [List.forall₂_nil_left_iff, List.forall₂_cons_left_iff, Within, Utf8.tail,
      UInt8.reduceToNat] at fits
  · subst fits
    have valid : b.toNat.isValidChar := .inl (by omega)
    rw [number_nil, String.utf8EncodeChar, toNat_ofNat valid, if_pos (by omega), UInt8.ofNat_toNat]
  · obtain ⟨t, _, fit, rfl, rfl⟩ := fits
    simp only [number_cons, number_nil]
    apply encode_two <;> omega
  -- Of three bytes or four, the bounds of the second keep the number within what is written with as many.
  iterate 3
    obtain ⟨t, _, fit, ⟨u, _, fit', rfl, rfl⟩, rfl⟩ := fits
    simp only [number_cons, number_nil]
    apply encode_three <;> omega
  iterate 3
    obtain ⟨t, _, fit, ⟨u, _, fit', ⟨w, _, fit'', rfl, rfl⟩, rfl⟩, rfl⟩ := fits
    simp only [number_cons, number_nil]
    apply encode_four <;> omega

theorem lead?_ofNat {k : Nat} (small : k < 256) : lead? (UInt8.ofNat k) =
    if k < 0x80 then some (k, [])
    else if k < 0xc2 then none
    else if k < 0xe0 then some (k - 0xc0, [tail])
    else if k = 0xe0 then some (0, [(0xa0, 0xbf), tail])
    else if k = 0xed then some (13, [(0x80, 0x9f), tail])
    else if k < 0xf0 then some (k - 0xe0, [tail, tail])
    else if k = 0xf0 then some (0, [(0x90, 0xbf), tail, tail])
    else if k < 0xf4 then some (k - 0xf0, [tail, tail, tail])
    else if k = 0xf4 then some (4, [(0x80, 0x8f), tail, tail])
    else none := by
  have number : (UInt8.ofNat k).toNat = k := UInt8.toNat_ofNat_of_lt' small
  simp only [lead?, UInt8.lt_iff_toNat_lt, ← UInt8.toNat_inj, UInt8.reduceToNat, number]

theorem lead?_three {k : Nat} {b : UInt8} (low : 0xe0 ≤ k) (high : k < 0xf0) (fit : Within tail b)
    (short : k = 0xe0 → 0xa0 ≤ b.toNat) (real : k = 0xed → b.toNat ≤ 0x9f) :
    ∃ bounds, lead? (UInt8.ofNat k) = some (k - 0xe0, [bounds, tail]) ∧ Within bounds b := by
  rw [lead?_ofNat (by omega)]
  rcases eq_or_ne k 0xe0 with rfl | other
  · exact ⟨_, rfl, short rfl, fit.2⟩
  · rcases eq_or_ne k 0xed with rfl | plain
    · exact ⟨_, rfl, fit.1, real rfl⟩
    · refine ⟨tail, ?_, fit⟩
      grind

theorem lead?_four {k : Nat} {b : UInt8} (low : 0xf0 ≤ k) (high : k < 0xf5) (fit : Within tail b)
    (short : k = 0xf0 → 0x90 ≤ b.toNat) (real : k = 0xf4 → b.toNat ≤ 0x8f) :
    ∃ bounds, lead? (UInt8.ofNat k) = some (k - 0xf0, [bounds, tail, tail]) ∧ Within bounds b := by
  rw [lead?_ofNat (by omega)]
  rcases eq_or_ne k 0xf0 with rfl | other
  · exact ⟨_, rfl, short rfl, fit.2⟩
  · rcases eq_or_ne k 0xf4 with rfl | plain
    · exact ⟨_, rfl, fit.1, real rfl⟩
    · refine ⟨tail, ?_, fit⟩
      grind

theorem toNat_tail (n : Nat) : (UInt8.ofNat (n % 64 + 0x80)).toNat = n % 64 + 0x80 :=
  UInt8.toNat_ofNat_of_lt' (by simp only [UInt8.size]; omega)

theorem within_tail (n : Nat) : Within tail (UInt8.ofNat (n % 64 + 0x80)) := by
  rw [Within, toNat_tail]
  simp only [tail, UInt8.reduceToNat]
  omega

theorem lead_encode (c : Char) : ∃ b n bounds tail, String.utf8EncodeChar c = b :: tail ∧
    lead? b = some (n, bounds) ∧ List.Forall₂ Within bounds tail ∧ number n tail = c.toNat := by
  have valid : c.toNat.isValidChar := c.valid
  unfold Nat.isValidChar at valid
  rw [String.utf8EncodeChar, Char.toNat_val]
  generalize c.toNat = v at valid
  split_ifs with one two three
  · exact ⟨_, v, [], [], rfl, by rw [lead?_ofNat (by omega), if_pos (by omega)], .nil, number_nil _⟩
  · refine ⟨_, v / 64, [tail], _, rfl, ?_, .cons (within_tail _) .nil, ?_⟩
    · rw [lead?_ofNat (by omega)]
      grind
    · simp only [number_cons, number_nil, toNat_tail]
      omega
  · have second := toNat_tail (v / 64)
    obtain ⟨bounds, leads, fit⟩ := lead?_three (k := v / 4096 % 16 + 0xe0) (by omega) (by omega)
      (within_tail (v / 64)) (by omega) (by omega)
    refine ⟨_, _, _, _, rfl, leads, .cons fit (.cons (within_tail _) .nil), ?_⟩
    simp only [number_cons, number_nil, toNat_tail]
    omega
  · have second := toNat_tail (v / 4096)
    obtain ⟨bounds, leads, fit⟩ := lead?_four (k := v / 262144 % 8 + 0xf0) (by omega) (by omega)
      (within_tail (v / 4096)) (by omega) (by omega)
    refine ⟨_, _, _, _, rfl, leads, .cons fit (.cons (within_tail _) (.cons (within_tail _) .nil)), ?_⟩
    simp only [number_cons, number_nil, toNat_tail]
    omega

theorem decode_encode_append (c : Char) (rest : List UInt8) :
    decode (String.utf8EncodeChar c ++ rest) = some c :: decode rest := by
  obtain ⟨b, n, bounds, tail, encoded, leads, fits, whole⟩ := lead_encode c
  rw [encoded, List.cons_append, decode, leads]
  simp only [finish_append fits n rest, whole, Char.ofNat_toNat]

theorem decode_encode (cs : List Char) :
    decode (cs.flatMap String.utf8EncodeChar) = cs.map some := by
  induction cs with
  | nil => rw [List.flatMap_nil, decode, List.map_nil]
  | cons c cs ih => rw [List.flatMap_cons, decode_encode_append, ih, List.map_cons]

theorem toTextLossy_bytes (text : String) : toTextLossy (Text.bytes text) = text := by
  rw [toTextLossy, ← String.ofList_toList (s := text), bytes_ofList, decode_encode, List.map_map]
  exact congrArg String.ofList (List.map_id _)

theorem encode_decode {bytes : List UInt8} {cs : List Char} (decoded : decode bytes = cs.map some) :
    cs.flatMap String.utf8EncodeChar = bytes := by
  fun_induction decode bytes generalizing cs with
  | case1 => rw [List.map_eq_nil_iff.mp decoded.symm, List.flatMap_nil]
  | case2 b bytes leads ih =>
    obtain ⟨c, _, _, none_, _⟩ := List.map_eq_cons_iff.mp decoded.symm
    simp at none_
  | case3 b bytes n bounds leads ih =>
    obtain ⟨c, others, rfl, first, others_⟩ := List.map_eq_cons_iff.mp decoded.symm
    obtain ⟨tail, fits, rest, rfl⟩ := finish_eq_some (Prod.ext first.symm rfl)
    rw [List.flatMap_cons, ih others_.symm, encode_number leads fits, List.cons_append, ← rest]

theorem mapM_id_eq_some_iff {α : Type} {found : List (Option α)} {all : List α} :
    found.mapM id = some all ↔ found = all.map some := by
  induction found generalizing all with
  | nil => cases all <;> simp
  | cons first found ih =>
    cases first <;> cases all <;> simp [Option.bind_eq_some_iff, ← ih, and_comm]

/-- A text is read from its UTF-8, and from no other bytes. -/
theorem toText?_eq_some_iff {bytes : List UInt8} {text : String} :
    toText? bytes = some text ↔ Text.bytes text = bytes := by
  rw [toText?]
  constructor
  · intro read
    obtain ⟨cs, decoded, rfl⟩ := Option.map_eq_some_iff.mp read
    rw [bytes_ofList, encode_decode (mapM_id_eq_some_iff.mp decoded)]
  · rintro rfl
    rw [← String.ofList_toList (s := text), bytes_ofList, decode_encode, mapM_id_eq_some_iff.mpr rfl]
    rfl

theorem toText?_eq_none_iff {bytes : List UInt8} :
    toText? bytes = none ↔ ∀ text, Text.bytes text ≠ bytes := by
  rw [Option.eq_none_iff_forall_ne_some]
  exact forall_congr' fun text => not_congr toText?_eq_some_iff

end StackLexer.Text.Utf8
