import GigBoard.Proofs.Cutting
import GigBoard.Proofs.Utf8
import GigBoard.Url.Domain
import Mathlib.Data.List.Basic

/-!
# No host has an at sign

An at sign in the text of a host is one octet by itself and no part of an escape, so the conversion of
domains is given it, and refuses it: it is one of the characters that no URL has in a domain.  As it
is no hexadecimal digit, neither is the text an address.
-/

set_option autoImplicit false

namespace GigBoard

/-! ## Steps that keep a character -/

namespace Text

theorem Percent.mem_decode {b : UInt8} {bs : List UInt8} (noDigit : hex? b = none)
    (noEscape : b ≠ 37) (hb : b ∈ bs) : b ∈ decode bs := by
  fun_induction decode bs with
  | case1 => cases hb
  | case2 => exact hb
  | case3 => exact hb
  | case4 first second rest low high isLow isHigh ih =>
      simp only [List.mem_cons, noEscape, false_or] at hb
      rcases hb with rfl | rfl | hb
      · rw [noDigit] at isHigh
        cases isHigh
      · rw [noDigit] at isLow
        cases isLow
      · exact List.mem_cons_of_mem _ (ih hb)
  | case5 first second rest _ ih =>
      rw [List.mem_cons] at hb ⊢
      exact hb.imp_right ih
  | case6 a first second rest _ ih =>
      rw [List.mem_cons] at hb ⊢
      exact hb.imp_right ih

namespace Utf8

variable {b : UInt8} {bs rest : List UInt8} {c : Char} {cs : List Char}

theorem mem_encode (small : c.toNat < 0x80) (hc : c ∈ cs) : c.toNat.toUInt8 ∈ encode cs := by
  refine List.mem_flatMap.mpr ⟨c, hc, ?_⟩
  rw [encodeChar_of_ascii small]
  exact List.mem_singleton_self _

end Utf8

end Text

namespace Url

/-! ## Addresses -/

section Addresses

variable {c : Char} {cs : List Char}

theorem continue?_of_mem (noDigit : Text.Hex.value? c = none) (hc : c ∈ cs) (n : Nat) :
    Text.Hex.continue? n cs = none := by
  induction cs generalizing n with
  | nil => cases hc
  | cons first cs ih =>
      rw [Text.Hex.continue?]
      rcases List.mem_cons.mp hc with rfl | hc
      · rw [noDigit, Option.bind_none]
      · simp [ih hc]

theorem digitsOfBase?_of_mem (noDigit : Text.Hex.value? c = none) (hc : c ∈ cs) (base : Nat) :
    digitsOfBase? base cs = none := by
  -- After the character nothing is read any more.
  have stays (cs : List Char) : cs.foldl (fun n c => n.bind fun n =>
      (Text.Hex.value? c).bind fun d => if d < base then some (n * base + d) else none) none =
        none := by
    induction cs with
    | nil => rfl
    | cons _ _ ih => exact ih
  obtain ⟨front, back, rfl⟩ := List.append_of_mem hc
  rw [digitsOfBase?, List.foldl_append, List.foldl_cons, noDigit]
  simp [stays]

theorem group?_of_mem (noDigit : Text.Hex.value? c = none) (hc : c ∈ cs) : group? cs = none := by
  rw [group?, Text.Hex.toNat?, continue?_of_mem noDigit hc, ite_self]

theorem decimalOctet?_of_mem (noDigit : Text.Hex.value? c = none) (hc : c ∈ cs) :
    decimalOctet? cs = none := by
  rw [decimalOctet?, digitsOfBase?_of_mem noDigit hc, Option.bind_none, ite_self]

theorem mapM_of_mem {α β : Type} {f : α → Option β} {a : α} {as : List α} (ha : a ∈ as)
    (refused : f a = none) : as.mapM f = none := by
  induction as with
  | nil => cases ha
  | cons first as ih =>
      rw [List.mapM_cons]
      rcases List.mem_cons.mp ha with rfl | ha
      · rw [refused]
        rfl
      · simp [ih ha]

theorem dottedGroups?_of_mem (noDigit : Text.Hex.value? c = none) (noPoint : c ≠ '.')
    (hc : c ∈ cs) : dottedGroups? cs = none := by
  obtain ⟨piece, hpiece, inPiece⟩ := Text.exists_mem_splitAt hc noPoint
  rw [dottedGroups?, mapM_of_mem hpiece (decimalOctet?_of_mem noDigit inPiece)]

theorem groups?_of_mem (noDigit : Text.Hex.value? c = none) (noPoint : c ≠ '.') (atEnd : Bool)
    {pieces : List (List Char)} {piece : List Char} (hpiece : piece ∈ pieces) (hc : c ∈ piece) :
    groups? atEnd pieces = none := by
  fun_induction groups? atEnd pieces with
  | case1 => cases hpiece
  | case2 last dotted =>
      rw [List.mem_singleton] at hpiece
      subst hpiece
      exact dottedGroups?_of_mem noDigit noPoint hc
  | case3 last _ =>
      rw [List.mem_singleton] at hpiece
      subst hpiece
      rw [group?_of_mem noDigit hc, Option.map_none]
  | case4 first pieces _ ih =>
      rcases List.mem_cons.mp hpiece with rfl | hpiece
      · rw [group?_of_mem noDigit hc, Option.bind_none]
      · simp [ih hpiece]

theorem side?_of_mem (noDigit : Text.Hex.value? c = none) (noPoint : c ≠ '.') (noColon : c ≠ ':')
    (atEnd : Bool) (hc : c ∈ cs) : side? atEnd cs = none := by
  obtain ⟨piece, hpiece, inPiece⟩ := Text.exists_mem_splitAt hc noColon
  cases cs with
  | nil => cases hc
  | cons first cs => exact groups?_of_mem noDigit noPoint atEnd hpiece inPiece

theorem eq_append_of_cutGap {front back : List Char} (cut : cutGap cs = some (front, back)) :
    cs = front ++ ':' :: ':' :: back := by
  fun_induction cutGap cs generalizing front with
  | case1 rest =>
      cases cut
      rfl
  | case2 first cs _ ih =>
      obtain ⟨⟨before, after⟩, found, same⟩ := Option.map_eq_some_iff.mp cut
      cases same
      rw [ih found, List.cons_append]
  | case3 => cases cut

theorem ipv6?_of_mem (noDigit : Text.Hex.value? c = none) (noPoint : c ≠ '.') (noColon : c ≠ ':')
    (hc : c ∈ cs) : ipv6? cs = none := by
  unfold ipv6?
  split
  · rw [side?_of_mem noDigit noPoint noColon true hc, Option.bind_none]
  · rename_i front back cut
    rw [eq_append_of_cutGap cut] at hc
    simp only [List.mem_append, List.mem_cons, noColon, false_or] at hc
    rcases hc with hc | hc
    · rw [side?_of_mem noDigit noPoint noColon false hc]
    · rw [side?_of_mem noDigit noPoint noColon true hc]
      cases side? false front <;> rfl

end Addresses

/-! ## Hosts -/

theorem bracketed?_of_at {cs : List Char} (marked : '@' ∈ cs) : bracketed? cs = none := by
  unfold bracketed?
  split
  · rename_i closed
    have inside : '@' ∈ cs.dropLast := by
      rw [← List.dropLast_append_getLast? _ closed, List.mem_append] at marked
      simpa using marked
    rw [ipv6?_of_mem rfl (by decide) (by decide) inside, Option.map_none]
  · rfl

/-- A conversion refuses domains with an at sign, as the deny list of URLs demands. -/
def DeniesAt (toAscii : ToAscii) : Prop := ∀ octets, 64 ∈ octets → toAscii octets = none

theorem simpleToAscii_deniesAt : DeniesAt simpleToAscii := by
  intro octets marked
  exact if_pos (List.any_eq_true.mpr ⟨64, marked, by decide⟩)

/-- A text with an at sign is no host of a well-known scheme. -/
theorem domainHost?_of_at {toAscii : ToAscii} (denies : DeniesAt toAscii) {cs : List Char}
    (marked : '@' ∈ cs) : domainHost? toAscii cs = none := by
  unfold domainHost?
  split
  · rename_i rest
    exact bracketed?_of_at (List.mem_of_ne_of_mem (by decide) marked)
  · have octet : 64 ∈ Text.Percent.decode (Text.Utf8.encode cs) :=
      Text.Percent.mem_decode rfl (by decide) (Text.Utf8.mem_encode (c := '@') (by decide) marked)
    rw [denies _ octet, Option.bind_none]

end Url

end GigBoard
