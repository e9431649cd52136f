/-
GUIDs of virtual functions as text (`lib/route/link/sriov.c`).

A GUID is eight groups of two hexadecimal digits with colons between them. The parser looks at the length and at the
colons, and leaves each group to `strtoul`, of which it only asks that it stops behind the second character. So a group may
also be a digit behind a blank or a plus, or zero behind a minus.

- `strGroups_eq`: the groups are read one by one, whatever is in them.
- `str2guid_iff`: the parser accepts what the format says, except for texts with a group of that kind.
-/
import Mathlib.Tactic
import Mathlib.Data.Nat.Digits.Defs
import Libnl.Core.Numeral

namespace Libnl.VfGuid

open Numeral

def RTNL_VF_GUID_STR_LEN : ℕ := 23

/-- the loop over the groups, from the `i`th on with `n` left: the result, and what is stored -/
def strGroups (guidS : List Char) : ℕ → ℕ → ℕ → ℤ × ℕ
  | 0, _, guid => (0, guid)
  | n + 1, i, guid =>
    let tmp := strtoulHex (guidS.drop (i * 3))
    if tmp.2 ≠ guidS.drop (i * 3 + 2) then (-1, guid)
    else if 255 < tmp.1 then (-1, guid)
    else strGroups guidS n (i + 1) (guid ||| tmp.1 <<< (56 - 8 * i))

/-- `rtnl_link_vf_str2guid`: the result, and what `*guid` is then -/
def rtnlLinkVfStr2guid (guid : ℕ) (guidS : List Char) : ℤ × ℕ :=
  if guidS.length ≠ RTNL_VF_GUID_STR_LEN then (-1, guid)
  else if ∃ i < 7, guidS[2 + i * 3]? ≠ some ':' then (-1, guid)
  else strGroups guidS 8 0 0

/-! ## The format -/

/-- groups of two characters with colons between them -/
def groupsText : List (Char × Char) → List Char
  | [] => []
  | [g] => [g.1, g.2]
  | g :: g' :: gs => g.1 :: g.2 :: ':' :: groupsText (g' :: gs)

/-- eight groups with these values: the text is a GUID, most significant byte first -/
def IsGuid (s : List Char) (v : ℕ) : Prop :=
  ∃ (gs : List (Char × Char)) (vs : List ℕ), gs.length = 8 ∧ s = groupsText gs ∧
    gs.map (fun g => digitPair g.1 g.2) = vs.map some ∧ v = Nat.ofDigits 256 vs.reverse

/-- eight groups, each two digits or a padded digit, and not all of the first kind -/
def Padded (s : List Char) : Prop :=
  ∃ gs, gs.length = 8 ∧ s = groupsText gs ∧ (∀ g ∈ gs, digitPair g.1 g.2 ≠ none ∨ paddedDigit g.1 g.2 ≠ none) ∧
    ∃ g ∈ gs, digitPair g.1 g.2 = none

theorem groupsText_cons (g : Char × Char) {gs : List (Char × Char)} (hgs : gs ≠ []) :
    groupsText (g :: gs) = g.1 :: g.2 :: ':' :: groupsText gs := by
  cases gs with
  | nil => exact absurd rfl hgs
  | cons g' gs => rfl

/-- behind a group there is an end -/
theorem groupsText_split (g : Char × Char) (gs : List (Char × Char)) :
    ∃ r, groupsText (g :: gs) = g.1 :: g.2 :: r ∧ Ends r ∧ r.drop 1 = groupsText gs := by
  cases gs with
  | nil => exact ⟨[], rfl, fun c hc => (by cases hc), rfl⟩
  | cons g' gs =>
    refine ⟨':' :: groupsText (g' :: gs), rfl, fun c hc => ?_, rfl⟩
    obtain rfl : ':' = c := Option.some.inj hc
    exact ⟨by decide, by decide, by decide, by decide⟩

/-- the checks on length and colons -/
theorem exists_groupsText_iff (n : ℕ) (s : List Char) :
    (∃ gs, gs.length = n + 1 ∧ s = groupsText gs) ↔ s.length = n * 3 + 2 ∧ ∀ i < n, s[2 + i * 3]? = some ':' := by
  induction n generalizing s with
  | zero =>
    constructor
    · rintro ⟨gs, hlen, rfl⟩
      obtain ⟨g, rfl⟩ := List.length_eq_one_iff.1 hlen
      exact ⟨rfl, fun i hi => absurd hi (Nat.not_lt_zero i)⟩
    · rintro ⟨hlen, -⟩
      obtain ⟨a, b, rfl⟩ := List.length_eq_two.1 hlen
      exact ⟨[(a, b)], rfl, rfl⟩
  | succ n ih =>
    constructor
    · rintro ⟨gs, hlen, rfl⟩
      obtain ⟨g, gs, rfl⟩ := List.exists_cons_of_length_eq_add_one hlen
      have hlen : gs.length = n + 1 := Nat.succ.inj hlen
      obtain ⟨htext, hcolons⟩ := (ih _).1 ⟨gs, hlen, rfl⟩
      rw [groupsText_cons g (List.ne_nil_of_length_eq_add_one hlen)]
      refine ⟨by simp only [List.length_cons, htext]; omega, fun i hi => ?_⟩
      cases i with
      | zero => rfl
      | succ i =>
        have hnext := hcolons i (by omega)
        rw [show 2 + (i + 1) * 3 = (2 + i * 3) + 1 + 1 + 1 by ring]
        simpa only [List.getElem?_cons_succ] using hnext
    · rintro ⟨hlen, hcolons⟩
      obtain ⟨a, s, rfl⟩ := List.exists_cons_of_length_eq_add_one (hlen.trans (by ring : _ = (n * 3 + 4) + 1))
      obtain ⟨b, s, rfl⟩ := List.exists_cons_of_length_eq_add_one ((Nat.succ.inj hlen).trans (by ring : _ = (n * 3 + 3) + 1))
      have hcolon := hcolons 0 (by omega)
      cases s with
      | nil => cases hcolon
      | cons c s =>
        obtain rfl : c = ':' := Option.some.inj hcolon
        have hrest : s.length = n * 3 + 2 ∧ ∀ i < n, s[2 + i * 3]? = some ':' := by
          refine ⟨by simp only [List.length_cons] at hlen; omega, fun i hi => ?_⟩
          have hnext := hcolons (i + 1) (by omega)
          rw [show 2 + (i + 1) * 3 = (2 + i * 3) + 1 + 1 + 1 by ring] at hnext
          simpa only [List.getElem?_cons_succ] using hnext
        obtain ⟨gs, hgs, rfl⟩ := (ih s).2 hrest
        refine ⟨(a, b) :: gs, by rw [List.length_cons, hgs], ?_⟩
        rw [groupsText_cons _ (List.ne_nil_of_length_eq_add_one hgs)]

theorem groupsText_inj {gs gs' : List (Char × Char)} (hlen : gs.length = gs'.length) (h : groupsText gs = groupsText gs') :
    gs = gs' := by
  induction gs generalizing gs' with
  | nil => exact (List.eq_nil_of_length_eq_zero hlen.symm).symm
  | cons g gs ih =>
    cases gs' with
    | nil => cases hlen
    | cons g' gs' =>
      obtain ⟨r, htext, -, hdrop⟩ := groupsText_split g gs
      obtain ⟨r', htext', -, hdrop'⟩ := groupsText_split g' gs'
      rw [htext, htext'] at h
      obtain ⟨hfirst, h⟩ := List.cons.inj h
      obtain ⟨hsecond, rfl⟩ := List.cons.inj h
      rw [Prod.ext hfirst hsecond, ih (Nat.succ.inj hlen) (hdrop.symm.trans hdrop')]

/-! ## What is read -/

/-- what `strtoul` reads in a group -/
def groupValue (g : Char × Char) : Option ℕ := (digitPair g.1 g.2).or (paddedDigit g.1 g.2)

theorem groupValue_le {g : Char × Char} {v : ℕ} (h : groupValue g = some v) : v ≤ 255 := by
  rw [groupValue, Option.or_eq_some_iff] at h
  rcases h with h | ⟨-, h⟩
  · obtain ⟨m, hm, h⟩ := Option.bind_eq_some_iff.1 h
    obtain ⟨n, hn, rfl⟩ := Option.map_eq_some_iff.1 h
    have hm := digitIn_lt hm
    have hn := digitIn_lt hn
    omega
  · rw [paddedDigit] at h
    split_ifs at h
    · have hv := digitIn_lt h
      omega
    · obtain rfl := Option.some.inj h
      exact Nat.zero_le _

/-- the two checks on a group -/
theorem group_accepted_iff {r : List Char} (hr : Ends r) (g : Char × Char) (v : ℕ) :
    ((strtoulHex (g.1 :: g.2 :: r)).2 = r ∧ ¬ 255 < (strtoulHex (g.1 :: g.2 :: r)).1 ∧
      (strtoulHex (g.1 :: g.2 :: r)).1 = v) ↔ groupValue g = some v := by
  have hread : ∀ w ≤ 255, strtoulHex (g.1 :: g.2 :: r) = (w, r) ↔ groupValue g = some w := by
    intro w hw
    rw [strtoulHex_two hr _ _ hw, groupValue, Option.or_eq_some_iff]
    refine or_congr_right ⟨fun h => ⟨?_, h⟩, fun h => h.2⟩
    exact digitPair_of_padded h
  constructor
  · rintro ⟨hend, hle, rfl⟩
    exact (hread _ (not_lt.1 hle)).1 (Prod.ext rfl hend)
  · intro h
    have heq := (hread v (groupValue_le h)).2 h
    rw [heq]
    exact ⟨rfl, not_lt.2 (groupValue_le h), rfl⟩

/-- a byte goes below the others -/
theorem or_byte {y v k : ℕ} (hv : v ≤ 255) : y * 2 ^ (k + 8) ||| v <<< k = (v + 256 * y) * 2 ^ k := by
  have hlow : v * 2 ^ k < 2 ^ (k + 8) := by
    rw [pow_add, mul_comm (2 ^ k)]
    exact Nat.mul_lt_mul_of_pos_right (by omega) (Nat.two_pow_pos k)
  rw [Nat.shiftLeft_eq, mul_comm y, ← Nat.two_pow_add_eq_or_of_lt hlow, pow_add]
  ring

section
variable {s : List Char} {n i : ℕ} {gs : List (Char × Char)}

/-- **The loop stores all groups**, if each can be read. -/
theorem strGroups_eq {vs : List ℕ} (hlen : gs.length = n) (hat : s.drop (i * 3) = groupsText gs) (hroom : i + n = 8)
    (hvs : gs.map groupValue = vs.map some) (y : ℕ) :
    strGroups s n i (y * 2 ^ (8 * n)) = (0, Nat.ofDigits 256 vs.reverse + 256 ^ n * y) := by
  induction n generalizing i gs vs y with
  | zero =>
    obtain rfl := List.eq_nil_of_length_eq_zero hlen
    obtain rfl : vs = [] := List.map_eq_nil_iff.1 hvs.symm
    simp [strGroups]
  | succ n ih =>
    obtain ⟨g, gs, rfl⟩ := List.exists_cons_of_length_eq_add_one hlen
    obtain ⟨v, vs, rfl, hg, htail⟩ : ∃ v vs', vs = v :: vs' ∧ groupValue g = some v ∧ gs.map groupValue = vs'.map some := by
      cases vs with
      | nil => cases hvs
      | cons v vs => exact ⟨v, vs, rfl, (List.cons.inj hvs).1, (List.cons.inj hvs).2⟩
    have hlen : gs.length = n := Nat.succ.inj hlen
    obtain ⟨r, htext, hr, hdrop⟩ := groupsText_split g gs
    rw [htext] at hat
    obtain ⟨hend, hle, hv⟩ := (group_accepted_iff hr g v).2 hg
    have hptr : s.drop (i * 3 + 2) = r := by rw [← List.drop_drop, hat]; rfl
    have hnext : s.drop ((i + 1) * 3) = groupsText gs := by
      rw [show (i + 1) * 3 = i * 3 + 2 + 1 by ring, ← List.drop_drop, hptr, hdrop]
    have hshift : 56 - 8 * i = 8 * n := by omega
    rw [strGroups, hat, hptr, if_neg (not_not.2 hend), if_neg hle, hv, hshift, Nat.mul_add, or_byte (groupValue_le hg),
      ih hlen hnext (by omega) htail, List.reverse_cons, Nat.ofDigits_append, Nat.ofDigits_singleton, List.length_reverse]
    have hcount : vs.length = n := by
      have hmap := congrArg List.length htail
      rw [List.length_map, List.length_map, hlen] at hmap
      exact hmap.symm
    rw [hcount, pow_succ]
    congr 1
    ring

/-- it fails at a group that cannot -/
theorem strGroups_bad (hlen : gs.length = n) (hat : s.drop (i * 3) = groupsText gs)
    (hbad : ∃ g ∈ gs, groupValue g = none) (guid : ℕ) : (strGroups s n i guid).1 = -1 := by
  induction n generalizing i gs guid with
  | zero =>
    obtain rfl := List.eq_nil_of_length_eq_zero hlen
    obtain ⟨g, hg, -⟩ := hbad
    exact absurd hg List.not_mem_nil
  | succ n ih =>
    obtain ⟨g, gs, rfl⟩ := List.exists_cons_of_length_eq_add_one hlen
    obtain ⟨r, htext, hr, hdrop⟩ := groupsText_split g gs
    rw [htext] at hat
    have hptr : s.drop (i * 3 + 2) = r := by rw [← List.drop_drop, hat]; rfl
    have hnext : s.drop ((i + 1) * 3) = groupsText gs := by
      rw [show (i + 1) * 3 = i * 3 + 2 + 1 by ring, ← List.drop_drop, hptr, hdrop]
    rw [strGroups, hat, hptr]
    by_cases hend : (strtoulHex (g.1 :: g.2 :: r)).2 = r
    · rw [if_neg (not_not.2 hend)]
      by_cases hle : 255 < (strtoulHex (g.1 :: g.2 :: r)).1
      · rw [if_pos hle]
      · have hg := (group_accepted_iff hr g _).1 ⟨hend, hle, rfl⟩
        rw [if_neg hle]
        refine ih (Nat.succ.inj hlen) hnext ?_ _
        obtain ⟨b, hb, hnone⟩ := hbad
        rcases List.mem_cons.1 hb with rfl | hb
        · rw [hg] at hnone
          cases hnone
        · exact ⟨b, hb, hnone⟩
    · rw [if_pos hend]

end

/-- the values of groups that can all be read -/
theorem values_or_bad (gs : List (Char × Char)) :
    (∃ vs : List ℕ, gs.map groupValue = vs.map some) ∨ ∃ g ∈ gs, groupValue g = none := by
  induction gs with
  | nil => exact .inl ⟨[], rfl⟩
  | cons g gs ih =>
    cases hg : groupValue g with
    | none => exact .inr ⟨g, List.mem_cons_self, hg⟩
    | some v =>
      rcases ih with ⟨vs, hvs⟩ | ⟨b, hb, hnone⟩
      · exact .inl ⟨v :: vs, by rw [List.map_cons, List.map_cons, hg, hvs]⟩
      · exact .inr ⟨b, List.mem_cons_of_mem _ hb, hnone⟩

/-- **The parser**: its result, whatever the text. -/
theorem str2guid_cases (s : List Char) :
    (∃ (gs : List (Char × Char)) (vs : List ℕ), gs.length = 8 ∧ s = groupsText gs ∧ gs.map groupValue = vs.map some ∧
      ∀ guid, rtnlLinkVfStr2guid guid s = (0, Nat.ofDigits 256 vs.reverse)) ∨
    ((∀ gs : List (Char × Char), gs.length = 8 → s = groupsText gs → ∃ g ∈ gs, groupValue g = none) ∧
      ∀ guid, (rtnlLinkVfStr2guid guid s).1 = -1) := by
  have hform := exists_groupsText_iff 7 s
  by_cases hshape : ∃ gs, gs.length = 7 + 1 ∧ s = groupsText gs
  · obtain ⟨hlen, hcolons⟩ := hform.1 hshape
    have hcall : ∀ guid, rtnlLinkVfStr2guid guid s = strGroups s 8 0 0 := fun guid => by
      rw [rtnlLinkVfStr2guid, if_neg (not_not.2 (show _ = RTNL_VF_GUID_STR_LEN from hlen)), if_neg]
      rintro ⟨i, hi, hne⟩
      exact hne (hcolons i hi)
    obtain ⟨gs, hgs, rfl⟩ := hshape
    rcases values_or_bad gs with ⟨vs, hvs⟩ | hbad
    · refine .inl ⟨gs, vs, hgs, rfl, hvs, fun guid => ?_⟩
      have hloop := strGroups_eq (i := 0) hgs (by rw [Nat.zero_mul, List.drop_zero]) rfl hvs 0
      rw [Nat.zero_mul, Nat.mul_zero, Nat.add_zero] at hloop
      rw [hcall]
      exact hloop
    · refine .inr ⟨fun gs' hgs' htext => ?_, fun guid => ?_⟩
      · rw [← groupsText_inj (hgs.trans hgs'.symm) htext]
        exact hbad
      · rw [hcall]
        exact strGroups_bad (i := 0) hgs (by rw [Nat.zero_mul, List.drop_zero]) hbad 0
  · refine .inr ⟨fun gs hgs htext => absurd ⟨gs, hgs, htext⟩ hshape, fun guid => ?_⟩
    rw [rtnlLinkVfStr2guid]
    by_cases hlen : s.length = RTNL_VF_GUID_STR_LEN
    · rw [if_neg (not_not.2 hlen), if_pos]
      by_contra hno
      push Not at hno
      exact hshape (hform.2 ⟨hlen, hno⟩)
    · rw [if_pos hlen]

/-- the groups of a GUID are pairs of digits -/
theorem IsGuid.pairs {s : List Char} {v : ℕ} (h : IsGuid s v) {gs : List (Char × Char)} (hlen : gs.length = 8)
    (htext : s = groupsText gs) {g : Char × Char} (hg : g ∈ gs) : digitPair g.1 g.2 ≠ none := by
  obtain ⟨gs', vs, hlen', htext', hvs, -⟩ := h
  obtain rfl : gs' = gs := groupsText_inj (hlen'.trans hlen.symm) (htext'.symm.trans htext)
  intro hnone
  have hmem : digitPair g.1 g.2 ∈ vs.map some := hvs ▸ List.mem_map.2 ⟨g, hg, rfl⟩
  obtain ⟨w, -, hw⟩ := List.mem_map.1 hmem
  rw [hnone] at hw
  cases hw

theorem groupValue_eq_none_iff {g : Char × Char} : groupValue g = none ↔ digitPair g.1 g.2 = none ∧ paddedDigit g.1 g.2 = none := by
  rw [groupValue, Option.or_eq_none_iff]

/-- **GUIDs are read** as the format says iff no group is a padded digit in a text that is a GUID otherwise. -/
theorem str2guid_iff (s : List Char) :
    (∀ guid, ((rtnlLinkVfStr2guid guid s).1 = 0 ↔ ∃ v, IsGuid s v) ∧ ∀ v, IsGuid s v → rtnlLinkVfStr2guid guid s = (0, v)) ↔
      ¬ Padded s := by
  constructor
  · rintro hmeets ⟨gs, hlen, htext, hall, g, hg, hnone⟩
    rcases str2guid_cases s with ⟨_, _, _, _, _, hread⟩ | ⟨hbad, -⟩
    · obtain ⟨v, hguid⟩ := (hmeets 0).1.1 (congrArg Prod.fst (hread 0))
      exact hguid.pairs hlen htext hg hnone
    · obtain ⟨b, hb, hvalue⟩ := hbad gs hlen htext
      obtain ⟨hpair, hpadded⟩ := groupValue_eq_none_iff.1 hvalue
      rcases hall b hb with h | h
      · exact h hpair
      · exact h hpadded
  · intro hplain guid
    rcases str2guid_cases s with ⟨gs, vs, hlen, htext, hvs, hread⟩ | ⟨hbad, hfail⟩
    · have hpair : ∀ g ∈ gs, digitPair g.1 g.2 = groupValue g := by
        intro g hg
        cases hcase : digitPair g.1 g.2 with
        | some v => rw [groupValue, hcase, Option.some_or]
        | none =>
          refine absurd ⟨gs, hlen, htext, fun b hb => ?_, g, hg, hcase⟩ hplain
          by_contra hno
          push Not at hno
          have hmem : groupValue b ∈ vs.map some := hvs ▸ List.mem_map.2 ⟨b, hb, rfl⟩
          obtain ⟨w, -, hw⟩ := List.mem_map.1 hmem
          rw [groupValue_eq_none_iff.2 hno] at hw
          cases hw
      have hguid : IsGuid s (Nat.ofDigits 256 vs.reverse) :=
        ⟨gs, vs, hlen, htext, (List.map_congr_left hpair).trans hvs, rfl⟩
      have hval : ∀ v, IsGuid s v → v = Nat.ofDigits 256 vs.reverse := by
        rintro v ⟨gs', vs', hlen', htext', hvs', rfl⟩
        obtain rfl : gs' = gs := groupsText_inj (hlen'.trans hlen.symm) (htext'.symm.trans htext)
        have hsame : vs'.map some = vs.map some := (hvs'.symm.trans (List.map_congr_left hpair)).trans hvs
        rw [List.map_injective_iff.2 (Option.some_injective ℕ) hsame]
      refine ⟨iff_of_true (congrArg Prod.fst (hread guid)) ⟨_, hguid⟩, fun v hv => ?_⟩
      rw [hread, hval v hv]
    · have hno : ∀ v, ¬ IsGuid s v := by
        intro v hguid
        have hpairs := fun gs => @IsGuid.pairs s v hguid gs
        obtain ⟨gs, vs, hlen, htext, -⟩ := hguid
        obtain ⟨b, hb, hvalue⟩ := hbad gs hlen htext
        exact hpairs gs hlen htext hb (groupValue_eq_none_iff.1 hvalue).1
      refine ⟨iff_of_false (by rw [hfail]; decide) (not_exists.2 hno), fun v hv => absurd hv (hno v)⟩

/-- a blank instead of the first digit -/
theorem blank_is_a_digit : (rtnlLinkVfStr2guid 0 " 1:02:03:04:05:06:07:08".toList) = (0, 0x0102030405060708) ∧
    ¬ ∃ v, IsGuid " 1:02:03:04:05:06:07:08".toList v := by
  refine ⟨by rfl, ?_⟩
  rintro ⟨v, hguid⟩
  have hpairs := @IsGuid.pairs _ _ hguid
    [(' ', '1'), ('0', '2'), ('0', '3'), ('0', '4'), ('0', '5'), ('0', '6'), ('0', '7'), ('0', '8')] rfl (by decide)
  exact hpairs List.mem_cons_self (by decide)

end Libnl.VfGuid
