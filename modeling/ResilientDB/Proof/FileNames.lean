import ResilientDB.Model.Recovery
import Mathlib.Data.List.TakeWhile

namespace ResilientDB.Proof
open Model List

variable {c : Char} {s a b front tail ext base : List Char} {pos value : Int} {name : LogName}

theorem rfind_eq (found : (if pos < 0 then s else s.take (pos.toNat + 1)) = a ++ c :: b) (free : c ∉ b) :
    rfind c s pos = a.length := by
  unfold rfind
  dsimp only
  have kept : ∀ other ∈ b.reverse, decide (other ≠ c) = true := by
    intro other member
    exact decide_eq_true fun same => free (same ▸ mem_reverse.mp member)
  rw [found, reverse_append, reverse_cons, append_assoc, takeWhile_append_of_pos kept]
  simp
  omega

theorem rfind_prev (whole : a ++ c :: b <+: s) (free : c ∉ b) :
    rfind c s ((a ++ c :: b).length - 1 : Int) = a.length := by
  refine rfind_eq ?_ free
  have length : (a ++ c :: b).length = a.length + (b.length + 1) := by rw [length_append, length_cons]
  rw [if_neg (by omega), show ((a ++ c :: b).length - 1 : Int).toNat + 1 = (a ++ c :: b).length by omega]
  exact (prefix_iff_eq_take.mp whole).symm

theorem fieldBetween_eq (whole : a ++ c :: b <+: s) : fieldBetween s a.length (a ++ c :: b).length = stoll b := by
  obtain ⟨rest, rfl⟩ := whole
  unfold fieldBetween
  dsimp only
  have length : (a ++ c :: b).length = a.length + (b.length + 1) := by rw [length_append, length_cons]
  rw [if_neg (by omega), show ((a.length : Int) + 1).toNat = (a ++ [c]).length by simp,
    show ((a ++ c :: b).length - a.length - 1 : Int).toNat = b.length by omega,
    show a ++ c :: b ++ rest = a ++ [c] ++ (b ++ rest) by simp, drop_left, take_left]

theorem mem_toChars (member : c ∈ toChars value) : c.isDigit = true ∨ c = '-' := by
  unfold toChars at member
  split_ifs at member
  · rcases mem_cons.mp member with rfl | digit
    · exact .inr rfl
    · exact .inl (Nat.isDigit_of_mem_toDigits (by decide) (by decide) digit)
  · exact .inl (Nat.isDigit_of_mem_toDigits (by decide) (by decide) member)

theorem not_mem_toChars : '_' ∉ toChars value ∧ '.' ∉ toChars value := by
  constructor <;>
  · intro member
    have chars := mem_toChars member
    simp at chars

theorem takeSign_digit (digit : c.isDigit = true) : takeSign ((c :: s).dropWhile isSpace) = (false, c :: s) := by
  have range : 48 ≤ c.toNat ∧ c.toNat ≤ 57 := by
    simpa [Char.isDigit, UInt32.le_iff_toNat_le] using digit
  have solid : ¬ isSpace c = true := by
    simp only [isSpace, decide_eq_true_eq]
    rintro (rfl | ⟨-, small⟩)
    · exact absurd digit (by decide)
    · omega
  rw [dropWhile_cons_of_neg solid]
  unfold takeSign
  split
  · rename_i same
    cases same
    exact absurd digit (by decide)
  · rename_i same
    cases same
    exact absurd digit (by decide)
  · rfl

theorem stoll_toChars (low : -2 ^ 63 ≤ value) (high : value < 2 ^ 63) (stop : tail.takeWhile Char.isDigit = []) :
    stoll (toChars value ++ tail) = some value := by
  have digits : (Nat.toDigits 10 value.natAbs ++ tail).takeWhile Char.isDigit = Nat.toDigits 10 value.natAbs := by
    rw [takeWhile_append_of_pos fun _ member => Nat.isDigit_of_mem_toDigits (by decide) (by decide) member, stop,
      append_nil]
  have sign : takeSign ((toChars value ++ tail).dropWhile isSpace) =
      (decide (value < 0), Nat.toDigits 10 value.natAbs ++ tail) := by
    unfold toChars
    split_ifs with negative
    · rw [decide_eq_true negative]
      rfl
    · obtain ⟨first, rest, same⟩ := exists_cons_of_ne_nil (@Nat.toDigits_ne_nil value.natAbs 10)
      rw [decide_eq_false negative, same]
      exact takeSign_digit (Nat.isDigit_of_mem_toDigits (by decide) (by decide) (same ▸ mem_cons_self))
  unfold stoll
  rw [sign]
  dsimp only
  rw [digits, Nat.ofDigitChars_toDigits (by decide) (by decide)]
  have read : (if decide (value < 0) = true then -(value.natAbs : Int) else value.natAbs) = value := by
    simp only [decide_eq_true_eq]
    split_ifs <;> omega
  rw [read, if_pos ⟨Nat.toDigits_ne_nil, low, high⟩]

theorem splitName_eq (long : 2 ≤ front.length) (free : '.' ∉ ext) :
    splitName (front ++ '.' :: ext) = (front, '.' :: ext) := by
  have dot : rfind '.' (front ++ '.' :: ext) (-1) = front.length := rfind_eq (if_pos (by decide)) free
  have other : front ++ '.' :: ext ≠ ['.', '.'] := fun same => by
    have size := congrArg length same
    simp at size
    omega
  unfold splitName
  dsimp only
  rw [dot, if_neg (not_or.mpr ⟨by omega, other⟩), Int.toNat_natCast, take_left, drop_left]

theorem splitName_ext (base : List Char) :
    (splitName base).2 = [] ∨ ∃ ext, (splitName base).2 = '.' :: ext ∧ '.' ∉ ext := by
  by_cases there : '.' ∈ base.reverse
  · obtain ⟨ext, front, same, free⟩ := eq_append_cons_of_mem there
    obtain rfl : base = front.reverse ++ '.' :: ext.reverse := by
      simpa using congrArg reverse same
    have dot : rfind '.' (front.reverse ++ '.' :: ext.reverse) (-1) = front.reverse.length :=
      rfind_eq (if_pos (by decide)) (by simpa using free)
    unfold splitName
    dsimp only
    rw [dot]
    split_ifs
    · exact .inl rfl
    · refine .inr ⟨ext.reverse, ?_, by simpa using free⟩
      rw [Int.toNat_natCast, drop_left]
  · left
    have all : base.reverse.takeWhile (fun other => decide (other ≠ '.')) = base.reverse :=
      takeWhile_eq_self_iff.mpr fun c member => decide_eq_true fun same => there (same ▸ member)
    have dot : rfind '.' base (-1) = -1 := by
      unfold rfind
      dsimp only
      rw [if_pos (by decide), all, length_reverse]
      omega
    unfold splitName
    dsimp only
    rw [dot, if_pos (.inl (by decide))]

theorem parseFields_stamp (stem : List Char) (stop : tail.takeWhile Char.isDigit = []) (free : '_' ∉ tail)
    (fits : ∀ value ∈ [name.time, name.minSeq, name.maxSeq, name.ckpt], -2 ^ 63 ≤ value ∧ value < 2 ^ 63) :
    parseFields (stampName stem name ++ tail) = some name := by
  simp only [forall_mem_cons] at fits
  obtain ⟨time, minSeq, maxSeq, ckpt, -⟩ := fits
  have plain : ∀ {value : Int}, -2 ^ 63 ≤ value ∧ value < 2 ^ 63 → stoll (toChars value) = some value := fun fits => by
    simpa using stoll_toChars fits.1 fits.2 (rfl : takeWhile Char.isDigit [] = [])
  have separate : ∀ {value : Int}, '_' ∉ toChars value := not_mem_toChars.1
  unfold stampName
  rw [append_assoc, cons_append]
  have fourth := prefix_refl (stem ++ '_' :: toChars name.time ++ '_' :: toChars name.minSeq ++
    '_' :: toChars name.maxSeq ++ '_' :: (toChars name.ckpt ++ tail))
  have third := (prefix_append _ _).trans fourth
  have second := (prefix_append _ _).trans third
  have first := (prefix_append _ _).trans second
  unfold parseFields
  dsimp only
  rw [rfind_eq (if_pos (by decide)) (by simp [separate, free] : '_' ∉ toChars name.ckpt ++ tail),
    rfind_prev third separate, rfind_prev second separate, rfind_prev first separate, fieldBetween_eq fourth,
    fieldBetween_eq third, fieldBetween_eq second, fieldBetween_eq first, stoll_toChars ckpt.1 ckpt.2 stop,
    plain maxSeq, plain minSeq, plain time]
  rfl

theorem log_name_parsed_iff (base : List Char)
    (fits : ∀ value ∈ [name.time, name.minSeq, name.maxSeq, name.ckpt], -2 ^ 63 ≤ value ∧ value < 2 ^ 63) :
    parseName (generateName base name) = .parsed name ↔
      (splitName base).2 = [] ∨ (splitName base).2 = ['.', 'l', 'o', 'g'] := by
  have long : 2 ≤ (stampName (splitName base).1 name).length := by
    simp [stampName]
    omega
  have parsed : ∀ tail ext, splitName (generateName base name) = (stampName (splitName base).1 name ++ tail, ext) →
      tail.takeWhile Char.isDigit = [] → '_' ∉ tail →
      (parseName (generateName base name) = .parsed name ↔ ext = ['.', 'l', 'o', 'g']) := by
    intro tail ext split stop free
    unfold parseName
    rw [split]
    dsimp only
    rw [parseFields_stamp _ stop free fits]
    by_cases same : ext = ['.', 'l', 'o', 'g'] <;> simp [same]
  rcases splitName_ext base with none | ⟨ext, same, free⟩
  · refine iff_of_true ((parsed [] _ ?_ rfl (by decide)).mpr rfl) (.inl none)
    unfold generateName
    dsimp only
    rw [if_pos none, splitName_eq long (by decide), append_nil]
  · have twice : generateName base name = stampName (splitName base).1 name ++ ['.'] ++ '.' :: ext := by
      unfold generateName
      dsimp only
      rw [same, if_neg (cons_ne_nil _ _), append_cons _ '.']
    have split := splitName_eq (long.trans (prefix_append _ ['.']).length_le) free
    rw [parsed ['.'] _ (twice ▸ split) rfl (by decide), same]
    simp

theorem plainBase_parsed : parseName (generateName ['l', 'o', 'g'] (generateFile 10 0 (-1) (-1))) =
    .parsed (generateFile 10 0 (-1) (-1)) :=
  (log_name_parsed_iff ['l', 'o', 'g'] (by decide)).mpr (.inl (by decide))

theorem otherExtension_skipped :
    parseName (generateName ['w', '.', 't', 'x', 't'] (generateFile 10 0 (-1) (-1))) = .skipped := by
  decide

end ResilientDB.Proof
