/-
What a comparison of security associations says (`xfrm_sa_compare` in `lib/xfrm/sa.c`).

All attributes go through one macro but the replay state. That is compared whether it is asked for or not, a difference shows
in bits of other attributes, and that only one of the two carries a replay state, or that they are of different kinds, is
found out and then forgotten.

- `xfrmSaCompare_split`: the answer, as a list of tests and the part about replay states.
- `sa_compare_iff`: where the answer is right.
- `asked_for_nothing`: two associations that differ in their replay states, and an answer to no question.
-/
import Mathlib.Tactic
import Libnl.Cache.Diff
import Libnl.Xfrm.SaTrack

namespace Libnl.Xfrm

open Bytes Object Diff Addr Mask

/-! ## What the answer should be -/

/-- the replay state that is carried, of one kind or the other -/
def replayOf (v : SaVal) : Option (XfrmnlReplayState ⊕ XfrmnlReplayStateEsn) :=
  if Carries v XFRM_SA_ATTR_REPLAY_STATE then some (v.data.replayStateEsn.elim (.inl v.data.replayState) .inr) else none

section
variable [HostOrder]

/-- the answer has only bits that were asked for; asked for everything, it is zero for an association and itself, and has the
bit of the replay state if the two do not carry the same -/
structure SaCmpRight (a b : SaVal) : Prop where
  confined : ∀ attrs flags, xfrmSaCompare a b attrs flags &&& attrs = xfrmSaCompare a b attrs flags
  self : xfrmSaCompare a a (BitVec.allOnes 64) 0 = 0 ∧ xfrmSaCompare b b (BitVec.allOnes 64) 0 = 0
  replay : xfrmSaCompare a b (BitVec.allOnes 64) 0 &&& XFRM_SA_ATTR_REPLAY_STATE ≠ 0 ↔ replayOf a ≠ replayOf b

/-! ## The answer -/

omit [HostOrder] in
/-- the tests, in the order of the source -/
def saTests (a b : SaVal) : List (BitVec 64 × Bool) :=
  let x := a.data
  let y := b.data
  [(XFRM_SA_ATTR_SEL, xfrmnlSelCmp x.sel y.sel), (XFRM_SA_ATTR_DADDR, nlAddrCmp (some x.id.daddr) (some y.id.daddr)),
    (XFRM_SA_ATTR_SPI, decide (x.id.spi ≠ y.id.spi)), ( XFRM_SA_ATTR_PROTO, decide (x.id.proto ≠ y.id.proto)),
    (XFRM_SA_ATTR_SADDR, nlAddrCmp (some x.saddr) (some y.saddr)), (XFRM_SA_ATTR_LTIME_CFG, decide (x.lft ≠ y.lft)),
    (XFRM_SA_ATTR_REQID, decide (x.reqid ≠ y.reqid)), (XFRM_SA_ATTR_FAMILY, decide (x.family ≠ y.family)),
    (XFRM_SA_ATTR_MODE, decide (x.mode ≠ y.mode)), (XFRM_SA_ATTR_REPLAY_WIN, decide (x.replayWindow ≠ y.replayWindow)),
    (XFRM_SA_ATTR_FLAGS, decide (x.flags ≠ y.flags)),
    (XFRM_SA_ATTR_ALG_AEAD, bothDiffer
      (fun p q => algoCmp p.toXfrmnlAlgo q.toXfrmnlAlgo || decide (p.algIcvLen ≠ q.algIcvLen)) x.aead y.aead),
    (XFRM_SA_ATTR_ALG_AUTH, bothDiffer
      (fun p q => algoCmp p.toXfrmnlAlgo q.toXfrmnlAlgo || decide (p.algTruncLen ≠ q.algTruncLen)) x.auth y.auth),
    (XFRM_SA_ATTR_ALG_CRYPT, bothDiffer algoCmp x.crypt y.crypt), (XFRM_SA_ATTR_ALG_COMP, bothDiffer algoCmp x.comp y.comp),
    (XFRM_SA_ATTR_ENCAP, bothDiffer encapCmp x.encap y.encap), (XFRM_SA_ATTR_TFCPAD, decide (x.tfcpad ≠ y.tfcpad)),
    (XFRM_SA_ATTR_COADDR, nlAddrCmp x.coaddr y.coaddr), (XFRM_SA_ATTR_MARK, decide (x.mark ≠ y.mark)),
    (XFRM_SA_ATTR_SECCTX, bothDiffer secCtxCmp x.secCtx y.secCtx),
    (XFRM_SA_ATTR_REPLAY_MAXAGE, decide (x.replayMaxage ≠ y.replayMaxage)),
    (XFRM_SA_ATTR_REPLAY_MAXDIFF, decide (x.replayMaxdiff ≠ y.replayMaxdiff)), (XFRM_SA_ATTR_EXPIRE, decide (x.hard ≠ y.hard))]

omit [HostOrder] in
/-- what the tests find -/
def saTestsDiff (attrs : BitVec 64) (a b : SaVal) : BitVec 64 :=
  ((saTests a b).map fun t => attrDiff attrs t.1 a b t.2).foldl (· ||| ·) 0

/-- **The answer**: the tests, and the replay states. -/
theorem xfrmSaCompare_split (a b : SaVal) (attrs : BitVec 64) (flags : ℕ) :
    xfrmSaCompare a b attrs flags = saTestsDiff attrs a b ||| replayDiff a b := by
  have hzero : ∀ x : BitVec 64, 0 ||| x = x := fun x => BitVec.zero_or
  simp only [saTestsDiff, saTests, List.map_cons, List.map_nil, List.foldl_cons, List.foldl_nil, hzero]
  rfl

omit [HostOrder] in
theorem saTests_bits (a b : SaVal) : (saTests a b).map Prod.fst =
    [XFRM_SA_ATTR_SEL, XFRM_SA_ATTR_DADDR, XFRM_SA_ATTR_SPI, XFRM_SA_ATTR_PROTO, XFRM_SA_ATTR_SADDR, XFRM_SA_ATTR_LTIME_CFG,
      XFRM_SA_ATTR_REQID, XFRM_SA_ATTR_FAMILY, XFRM_SA_ATTR_MODE, XFRM_SA_ATTR_REPLAY_WIN, XFRM_SA_ATTR_FLAGS,
      XFRM_SA_ATTR_ALG_AEAD, XFRM_SA_ATTR_ALG_AUTH, XFRM_SA_ATTR_ALG_CRYPT, XFRM_SA_ATTR_ALG_COMP, XFRM_SA_ATTR_ENCAP,
      XFRM_SA_ATTR_TFCPAD, XFRM_SA_ATTR_COADDR, XFRM_SA_ATTR_MARK, XFRM_SA_ATTR_SECCTX, XFRM_SA_ATTR_REPLAY_MAXAGE,
      XFRM_SA_ATTR_REPLAY_MAXDIFF, XFRM_SA_ATTR_EXPIRE] := rfl

omit [HostOrder] in
/-- each test has one bit, which is not that of the replay state -/
theorem saTests_bit {a b : SaVal} {t : BitVec 64 × Bool} (ht : t ∈ saTests a b) :
    (∃ i < 64, t.1 = BitVec.twoPow 64 i) ∧ t.1 &&& XFRM_SA_ATTR_REPLAY_STATE = 0 := by
  have hmem : t.1 ∈ (saTests a b).map Prod.fst := List.mem_map_of_mem ht
  rw [saTests_bits] at hmem
  refine ⟨singleBits_get (by rfl) hmem, ?_⟩
  have hall := List.all_eq_true.1 (show List.all _ (fun bit => decide (bit &&& XFRM_SA_ATTR_REPLAY_STATE = 0)) = true by
    rfl) t.1 hmem
  exact of_decide_eq_true hall

omit [HostOrder] in
theorem saTestsDiff_confined (attrs : BitVec 64) (a b : SaVal) : saTestsDiff attrs a b &&& attrs = saTestsDiff attrs a b := by
  have hnone : ∀ x : BitVec 64, x &&& ~~~attrs = 0 ↔ x &&& attrs = x := by
    intro x
    have hsplit : x &&& attrs ||| x &&& ~~~attrs = x := by
      rw [← BitVec.and_or_distrib_left, BitVec.or_not_self, BitVec.and_allOnes]
    constructor
    · intro h
      rw [h] at hsplit
      exact (BitVec.or_zero).symm.trans hsplit
    · intro h
      rw [← h, BitVec.and_assoc]
      simp
  rw [← hnone]
  refine foldl_or_and _ BitVec.zero_and ?_
  rw [List.forall_mem_map]
  intro t ht
  obtain ⟨⟨i, hi, heq⟩, -⟩ := saTests_bit ht
  rw [hnone, heq]
  exact attrDiff_confined hi attrs t.2

omit [HostOrder] in
theorem saTestsDiff_replay (attrs : BitVec 64) (a b : SaVal) : saTestsDiff attrs a b &&& XFRM_SA_ATTR_REPLAY_STATE = 0 := by
  refine foldl_or_and _ BitVec.zero_and ?_
  rw [List.forall_mem_map]
  intro t ht
  rw [attrDiff]
  split_ifs
  · exact (saTests_bit ht).2
  · exact BitVec.zero_and

omit [HostOrder] in
/-- nothing is found where nothing is asked for -/
theorem saTestsDiff_nothing (a b : SaVal) : saTestsDiff 0 a b = 0 := by
  have hconfined := saTestsDiff_confined 0 a b
  rw [← hconfined]
  exact BitVec.and_zero

omit [HostOrder] in
/-- no test finds a difference between an association and itself -/
theorem saTests_self {a : SaVal} {t : BitVec 64 × Bool} (ht : t ∈ saTests a a) : t.2 = false := by
  have haddr : ∀ x : Option NlAddr, nlAddrCmp x x = false := fun x => (nlAddrCmp_eq_false_iff x x).2 rfl
  have hboth : ∀ {γ : Type} (differ : γ → γ → Bool), (∀ x, differ x x = false) → ∀ x, bothDiffer differ x x = false := by
    intro γ differ hdiffer x
    cases x with
    | none => rfl
    | some x => exact hdiffer x
  have halgo : ∀ x, algoCmp x x = false := fun x => by simp [algoCmp]
  have haead : bothDiffer (fun p q : XfrmnlAlgoAead => algoCmp p.toXfrmnlAlgo q.toXfrmnlAlgo ||
      decide (p.algIcvLen ≠ q.algIcvLen)) a.data.aead a.data.aead = false := hboth _ (fun x => by simp [halgo]) _
  have hauth : bothDiffer (fun p q : XfrmnlAlgoAuth => algoCmp p.toXfrmnlAlgo q.toXfrmnlAlgo ||
      decide (p.algTruncLen ≠ q.algTruncLen)) a.data.auth a.data.auth = false := hboth _ (fun x => by simp [halgo]) _
  have hencap : ∀ x, encapCmp x x = false := fun x => by simp [encapCmp, haddr]
  have hctx : ∀ x, secCtxCmp x x = false := fun x => by simp [secCtxCmp]
  have hfalse : (saTests a a).map Prod.snd = List.replicate 23 false := by
    simp only [saTests, List.map_cons, List.map_nil, haddr, selCmp_self, haead, hauth, hboth _ halgo, hboth _ hencap,
      hboth _ hctx, ne_eq, not_true_eq_false, decide_false]
    rfl
  have hmem : t.2 ∈ (saTests a a).map Prod.snd := List.mem_map_of_mem ht
  rw [hfalse] at hmem
  exact List.eq_of_mem_replicate hmem

theorem xfrmSaCompare_self (a : SaVal) : xfrmSaCompare a a (BitVec.allOnes 64) 0 = 0 := by
  have htests : saTestsDiff (BitVec.allOnes 64) a a = 0 := by
    refine (foldl_or_eq_zero_iff _ _).2 ⟨rfl, ?_⟩
    rw [List.forall_mem_map]
    intro t ht
    obtain ⟨⟨i, hi, heq⟩, -⟩ := saTests_bit ht
    rw [heq, attrDiff_all_eq_zero_iff (twoPow_ne_zero hi), saTests_self ht, BitVec.xor_self]
    exact ⟨BitVec.zero_and, Or.inr rfl⟩
  have hreplay : replayDiff a a = 0 := (replayDiff_eq_zero_iff a a).2 fun _ _ => ⟨rfl, fun _ => rfl⟩
  rw [xfrmSaCompare_split, htests, hreplay]
  rfl

/-! ## Where it is right -/

omit [HostOrder] in
/-- the two carry the same replay state. Where neither carries one, there is the same in its place; the members are zero and
the pointer is null unless one was set. -/
structure SameReplay (a b : SaVal) : Prop where
  carried : replayOf a = replayOf b
  kept : ¬ Carries a XFRM_SA_ATTR_REPLAY_STATE → a.data.replayStateEsn.isSome = b.data.replayStateEsn.isSome →
    a.data.replayStateEsn = b.data.replayStateEsn ∧ (a.data.replayStateEsn = none → a.data.replayState = b.data.replayState)

omit [HostOrder] in
theorem has_iff_carries (a b : SaVal) : has a XFRM_SA_ATTR_REPLAY_STATE = has b XFRM_SA_ATTR_REPLAY_STATE ↔
    (Carries a XFRM_SA_ATTR_REPLAY_STATE ↔ Carries b XFRM_SA_ATTR_REPLAY_STATE) :=
  (has_eq_iff a b).trans (xor_and_iff (i := 25) (by decide))

omit [HostOrder] in
/-- what is carried is the same just if both carry one, of one kind, with the same values, or neither does -/
theorem replayOf_eq_iff (a b : SaVal) : replayOf a = replayOf b ↔
    (Carries a XFRM_SA_ATTR_REPLAY_STATE ↔ Carries b XFRM_SA_ATTR_REPLAY_STATE) ∧
      (Carries a XFRM_SA_ATTR_REPLAY_STATE → a.data.replayStateEsn = b.data.replayStateEsn ∧
        (a.data.replayStateEsn = none → a.data.replayState = b.data.replayState)) := by
  unfold replayOf
  by_cases ha : Carries a XFRM_SA_ATTR_REPLAY_STATE
  · by_cases hb : Carries b XFRM_SA_ATTR_REPLAY_STATE
    · rw [if_pos ha, if_pos hb, Option.some_inj, and_iff_right (iff_of_true ha hb)]
      cases a.data.replayStateEsn with
      | none =>
        cases b.data.replayStateEsn with
        | none => simp [ha]
        | some s => simp [ha]
      | some r =>
        cases b.data.replayStateEsn with
        | none => simp [ha]
        | some s => simp [ha]
    · rw [if_pos ha, if_neg hb]
      exact iff_of_false (Option.some_ne_none _) fun h => hb (h.1.1 ha)
  · by_cases hb : Carries b XFRM_SA_ATTR_REPLAY_STATE
    · rw [if_neg ha, if_pos hb]
      exact iff_of_false (Option.some_ne_none _).symm fun h => ha (h.1.2 hb)
    · rw [if_neg ha, if_neg hb]
      exact iff_of_true rfl ⟨iff_of_false ha hb, fun h => absurd h ha⟩

omit [HostOrder] in
theorem sameReplay_iff (a b : SaVal) : SameReplay a b ↔ replayOf a = replayOf b ∧ ReplayAgree a b := by
  constructor
  · rintro ⟨hcarried, hkept⟩
    refine ⟨hcarried, fun _ hkind => ?_⟩
    by_cases ha : Carries a XFRM_SA_ATTR_REPLAY_STATE
    · exact ((replayOf_eq_iff a b).1 hcarried).2 ha
    · exact hkept ha hkind
  · rintro ⟨hcarried, hagree⟩
    exact ⟨hcarried, fun _ => hagree ((has_iff_carries a b).2 ((replayOf_eq_iff a b).1 hcarried).1)⟩

/-- **Comparing associations.** The answers are right just if the two carry the same replay state. -/
theorem sa_compare_iff (a b : SaVal) : SaCmpRight a b ↔ SameReplay a b := by
  have hbit : replayDiff a b = 0 → xfrmSaCompare a b (BitVec.allOnes 64) 0 &&& XFRM_SA_ATTR_REPLAY_STATE = 0 := by
    intro hzero
    rw [xfrmSaCompare_split, hzero, BitVec.and_or_distrib_right, saTestsDiff_replay]
    rfl
  rw [sameReplay_iff, ← replayDiff_eq_zero_iff]
  constructor
  · intro h
    -- asked for nothing, the answer is what is said of the replay states
    have hzero : replayDiff a b = 0 := by
      have hconfined := h.confined 0 0
      rw [xfrmSaCompare_split, saTestsDiff_nothing] at hconfined
      have hor : (0 : BitVec 64) ||| replayDiff a b = replayDiff a b := BitVec.zero_or
      rw [hor] at hconfined
      rw [← hconfined]
      exact BitVec.and_zero
    refine ⟨?_, hzero⟩
    by_contra hne
    exact h.replay.2 hne (hbit hzero)
  · rintro ⟨hsame, hzero⟩
    refine ⟨?_, ⟨xfrmSaCompare_self a, xfrmSaCompare_self b⟩, ?_⟩
    · intro attrs flags
      have hor : ∀ x : BitVec 64, x ||| 0 = x := fun x => BitVec.or_zero
      rw [xfrmSaCompare_split, hzero, hor]
      exact saTestsDiff_confined attrs a b
    · exact iff_of_false (not_not.2 (hbit hzero)) (not_not.2 hsame)

end

/-- an association with a replay state of the plain kind, as it is parsed -/
def saReplaying (seq : BitVec 32) : SaVal :=
  saOf XFRM_MSG_NEWSA none (sampleSaInfo 2 [10, 0, 0, 1]) (onlyReplay ⟨0, seq, 1⟩)

/-- **An answer to no question**: the bit of the selectors, which are the same, for replay states that differ. Asked for
everything, the comparison has the same bit, and not that of the replay state. -/
theorem asked_for_nothing : @xfrmSaCompare ⟨false⟩ (saReplaying 7) (saReplaying 8) 0 0 = XFRM_SA_ATTR_SEL ∧
    @xfrmSaCompare ⟨false⟩ (saReplaying 7) (saReplaying 8) (BitVec.allOnes 64) 0 = XFRM_SA_ATTR_SEL ∧
    ¬ @SaCmpRight ⟨false⟩ (saReplaying 7) (saReplaying 8) := by
  have hnothing : @xfrmSaCompare ⟨false⟩ (saReplaying 7) (saReplaying 8) 0 0 = XFRM_SA_ATTR_SEL := by rfl
  refine ⟨hnothing, by rfl, fun h => ?_⟩
  have hconfined := @SaCmpRight.confined ⟨false⟩ _ _ h 0 0
  rw [hnothing] at hconfined
  revert hconfined
  decide

end Libnl.Xfrm
