/-
Requests for the network emulator.

When the writer stores the length of the options, the builder of attributes has moved the end of the message already. What the
writer adds to it is what it added to the length of the options: so the message ends behind its last attribute, by as much as
there is behind the structure. And the header it stores to is that of the options only if nothing but the kind stands in front.

- `checks_keep`: what the checks leave of a configuration.
- `parse_options`: the parser makes a configuration again. `fill_done`: what the writer leaves in the message.
- `options_right`: without a chain the options are right, up to the longest an attribute can be.
- `netem_request_iff`: which requests are right. `corruption_overshoots`: one that is not.
-/
import Mathlib.Tactic
import Libnl.Route.Netem

namespace Libnl.Netem

open Bytes Layout Msg Attr AttrWalk AttrTree AttrStream Writer Fields
open Overlong Tc

/-- the same configuration; the table of a distribution is not compared -/
structure SameConf (a b : RtnlNetem) : Prop where
  latency : b.qnmLatency = a.qnmLatency
  limit : b.qnmLimit = a.qnmLimit
  loss : b.qnmLoss = a.qnmLoss
  gap : b.qnmGap = a.qnmGap
  duplicate : b.qnmDuplicate = a.qnmDuplicate
  jitter : b.qnmJitter = a.qnmJitter
  corr : b.qnmCorr = a.qnmCorr
  ro : b.qnmRo = a.qnmRo
  crpt : b.qnmCrpt = a.qnmCrpt

/-- nothing that goes into an attribute of its own -/
structure Bare (netem : RtnlNetem) : Prop where
  corr : setCorrelation netem = false
  reorder : setReorder netem = false
  corrupt : setCorrupt netem = false
  dist : setDist netem = false

/-! ## Checks -/

/-- values that depend on others are zero without them -/
structure Checked (netem : RtnlNetem) : Prop where
  ro : setReorder netem = false → netem.qnmRo = ⟨0, 0⟩
  crpt : setCorrupt netem = false → netem.qnmCrpt = ⟨0, 0⟩

theorem checkRest_checked {netem : RtnlNetem} (h : ¬ checkRest netem < 0) : Checked netem := by
  have hneg : -NLE_MISSING_ATTR < 0 := by decide
  unfold checkRest at h
  split_ifs at h with hdelay hloss hduplicate hro hcrpt hdist
  · exact absurd hneg h
  · exact absurd hneg h
  · exact absurd hneg h
  · exact absurd hneg h
  · exact absurd hneg h
  · exact absurd hneg h
  · refine ⟨fun hset => ?_, fun hset => ?_⟩
    · have hprob : netem.qnmRo.nmroProbability = 0 := by simpa [setReorder] using hset
      have hcorr : netem.qnmRo.nmroCorrelation = 0 := by_contra fun hne => hro ⟨hprob, hne⟩
      cases hr : netem.qnmRo
      rw [hr] at hprob hcorr
      rw [RtnlNetemReo.mk.injEq]
      exact ⟨hprob, hcorr⟩
    · have hprob : netem.qnmCrpt.nmcrProbability = 0 := by simpa [setCorrupt] using hset
      have hcorr : netem.qnmCrpt.nmcrCorrelation = 0 := by_contra fun hne => hcrpt ⟨hprob, hne⟩
      cases hr : netem.qnmCrpt
      rw [hr] at hprob hcorr
      rw [RtnlNetemCrpt.mk.injEq]
      exact ⟨hprob, hcorr⟩

/-- **What the checks leave**: the configuration, or the same with a gap. -/
theorem checks_keep {netem : RtnlNetem} (h : ¬ (checkNetem netem).2 < 0) :
    Checked (checkNetem netem).1 ∧ ∃ gap, (checkNetem netem).1 = { netem with qnmGap := gap } := by
  have hneg : -NLE_MISSING_ATTR < 0 := by decide
  unfold checkNetem at h ⊢
  dsimp only at h ⊢
  split_ifs at h ⊢ with hro hlat hgap hgap
  · exact absurd hneg h
  · exact ⟨checkRest_checked h, 1, rfl⟩
  · exact ⟨checkRest_checked h, netem.qnmGap, rfl⟩
  · exact absurd hneg h
  · exact ⟨checkRest_checked h, netem.qnmGap, rfl⟩

/-- the mask of a configuration of which only the structure was read -/
def qoptMask : BitVec 32 := SCH_NETEM_ATTR_LATENCY ||| SCH_NETEM_ATTR_LIMIT ||| SCH_NETEM_ATTR_LOSS ||| SCH_NETEM_ATTR_GAP |||
  SCH_NETEM_ATTR_DUPLICATE ||| SCH_NETEM_ATTR_JITTER

/-- the configuration without what goes into attributes -/
def plain (netem : RtnlNetem) : RtnlNetem :=
  { netem with qnmMask := qoptMask, qnmCorr := ⟨0, 0, 0⟩, qnmRo := ⟨0, 0⟩, qnmCrpt := ⟨0, 0⟩, qnmDist := none }

/-- no correlation is zero -/
theorem corr_zero {netem : RtnlNetem} (h : setCorrelation netem = false) : netem.qnmCorr = ⟨0, 0, 0⟩ := by
  obtain ⟨latency, limit, loss, gap, duplicate, jitter, mask, ⟨delay, lossCorr, dup⟩, ro, crpt, dist⟩ := netem
  simp only [setCorrelation, ne_eq, decide_not, Bool.or_eq_false_iff, Bool.not_eq_eq_eq_not, Bool.not_false,
    decide_eq_true_eq] at h
  obtain ⟨⟨rfl, rfl⟩, rfl⟩ := h
  rfl

/-- what is put under a condition, and otherwise is what it is without -/
theorem optIf_getD {α : Type} {c : Bool} {x d : α} (h : c = false → x = d) : (optIf c x).getD d = x := by
  cases c with
  | true => rfl
  | false => exact (h rfl).symm

theorem same_plain {netem : RtnlNetem} (hchecked : Checked netem) (h : Bare netem) : SameConf netem (plain netem) :=
  ⟨rfl, rfl, rfl, rfl, rfl, rfl, (corr_zero h.corr).symm, (hchecked.ro h.reorder).symm, (hchecked.crpt h.corrupt).symm⟩

section

variable [HostOrder]

/-! ## Reading -/

theorem qopt_length (netem : RtnlNetem) : (qopt netem).length = SIZEOF_QOPT := by
  simp [qopt, SIZEOF_QOPT]

/-- the structure, read -/
theorem takeQopt_qopt {netem : RtnlNetem} (hlimit : netem.qnmLimit ≠ 0) {buf : Mem} (h : Seg buf 0 (qopt netem)) :
    takeQopt buf freshNetem = plain netem := by
  unfold qopt at h
  rw [if_pos hlimit] at h
  obtain ⟨h, hjitter⟩ := seg_append.1 h
  obtain ⟨h, hduplicate⟩ := seg_append.1 h
  obtain ⟨h, hgap⟩ := seg_append.1 h
  obtain ⟨h, hloss⟩ := seg_append.1 h
  obtain ⟨hlatency, hlimit⟩ := seg_append.1 h
  simp only [List.length_append, u32Bytes_length] at hjitter hduplicate hgap hloss hlimit
  unfold takeQopt
  rw [seg_u32At hlatency, seg_u32At hlimit, seg_u32At hloss, seg_u32At hgap, seg_u32At hduplicate, seg_u32At hjitter]
  rfl

theorem read_corr {buf : Mem} {pos t : ℕ} {c : RtnlNetemCorr} (h : At buf pos ⟨t, corrBytes c⟩) : readCorr buf pos = c := by
  obtain ⟨hfront, hduplicate⟩ := seg_append.1 h.data
  obtain ⟨hdelay, hloss⟩ := seg_append.1 hfront
  simp only [List.length_append, u32Bytes_length] at hloss hduplicate
  rw [readCorr, seg_u32At hdelay, seg_u32At hloss, seg_u32At hduplicate]

theorem read_reorder {buf : Mem} {pos t : ℕ} {r : RtnlNetemReo} (h : At buf pos ⟨t, reorderBytes r⟩) :
    readReorder buf pos = r := by
  obtain ⟨hprobability, hcorrelation⟩ := seg_append.1 h.data
  rw [u32Bytes_length] at hcorrelation
  rw [readReorder, seg_u32At hprobability, seg_u32At hcorrelation]

theorem read_corrupt {buf : Mem} {pos t : ℕ} {c : RtnlNetemCrpt} (h : At buf pos ⟨t, corruptBytes c⟩) :
    readCorrupt buf pos = c := by
  obtain ⟨hprobability, hcorrelation⟩ := seg_append.1 h.data
  rw [u32Bytes_length] at hcorrelation
  rw [readCorrupt, seg_u32At hprobability, seg_u32At hcorrelation]

/-- nothing behind the structure -/
theorem no_leaves_iff (netem : RtnlNetem) : leavesOf (netemFields netem) = [] ↔ Bare netem := by
  constructor
  · intro h
    have hnone : ∀ t p, (t, p) ∈ netemFields netem → p = none := by
      intro t p hmem
      cases p with
      | none => rfl
      | some p =>
        have hleaf : (⟨t, p⟩ : Leaf) ∈ leavesOf (netemFields netem) := mem_leavesOf.2 ⟨_, hmem, rfl, rfl⟩
        rw [h] at hleaf
        exact absurd hleaf List.not_mem_nil
    have hcorr := hnone _ _ List.mem_cons_self
    have hreorder := hnone _ _ (List.mem_cons_of_mem _ List.mem_cons_self)
    have hcorrupt := hnone _ _ (List.mem_cons_of_mem _ (List.mem_cons_of_mem _ List.mem_cons_self))
    have hdist := hnone _ _ (List.mem_cons_of_mem _ (List.mem_cons_of_mem _ (List.mem_cons_of_mem _ List.mem_cons_self)))
    refine ⟨?_, ?_, ?_, ?_⟩
    · simpa [optIf] using hcorr
    · simpa [optIf] using hreorder
    · simpa [optIf] using hcorrupt
    · simpa [optIf] using hdist
  · intro h
    unfold netemFields
    rw [h.corr, h.reorder, h.corrupt, h.dist]
    rfl

/-- attributes that are not too long -/
theorem netem_sendable {netem : RtnlNetem} (h : (encLeaves (leavesOf (netemFields netem))).length ≤ 65535) :
    Sendable netemPolicy (netemFields netem) := by
  refine Sendable.cons (by decide) ?corr (Sendable.cons (by decide) ?reorder (Sendable.cons (by decide) ?corrupt
    (Sendable.cons (by decide) (sends_any rfl ?dist) (Sendable.nil _))))
  case corr =>
    refine sends_struct (n := SIZEOF_CORR) rfl (by decide) fun q hq => ?_
    obtain ⟨c, -, rfl⟩ := Option.map_eq_some_iff.1 hq
    simp [corrBytes, SIZEOF_CORR]
  case reorder =>
    refine sends_struct (n := SIZEOF_REORDER) rfl (by decide) fun q hq => ?_
    obtain ⟨c, -, rfl⟩ := Option.map_eq_some_iff.1 hq
    simp [reorderBytes, SIZEOF_REORDER]
  case corrupt =>
    refine sends_struct (n := SIZEOF_CORRUPT) rfl (by decide) fun q hq => ?_
    obtain ⟨c, -, rfl⟩ := Option.map_eq_some_iff.1 hq
    simp [corruptBytes, SIZEOF_CORRUPT]
  case dist =>
    intro q hq
    have hmem : (TCA_NETEM_DELAY_DIST, some q) ∈ netemFields netem := by
      rw [← hq]
      simp [netemFields]
    have hleaf : (⟨TCA_NETEM_DELAY_DIST, q⟩ : Leaf) ∈ leavesOf (netemFields netem) := mem_leavesOf.2 ⟨_, hmem, rfl, rfl⟩
    have hle := leaf_le_enc hleaf
    have hge := le_align4 (4 + q.length)
    rw [encLeaf_length] at hle
    dsimp only at hle
    omega

theorem netem_distinct (netem : RtnlNetem) : Distinct (netemFields netem) := by
  show List.Nodup [1, 3, 4, 2]
  decide

/-- the attributes, read -/
theorem same_attrs {netem : RtnlNetem} (hchecked : Checked netem) {buf : Mem} {tb : Index}
    (h : Indexes buf TCA_NETEM_MAX (leavesOf (netemFields netem)) tb) :
    SameConf netem (takeAttrs buf tb (plain netem)) := by
  have hd := netem_distinct netem
  have hmax : TCA_NETEM_MAX < 16384 := by decide
  have hcorr := shown_plain h hd hmax (t := TCA_NETEM_CORR) (p := (optIf (setCorrelation netem) netem.qnmCorr).map corrBytes)
    (by simp [netemFields]) (by decide)
  have hro := shown_plain h hd hmax (t := TCA_NETEM_REORDER) (p := (optIf (setReorder netem) netem.qnmRo).map reorderBytes)
    (by simp [netemFields]) (by decide)
  have hcrpt := shown_plain h hd hmax (t := TCA_NETEM_CORRUPT) (p := (optIf (setCorrupt netem) netem.qnmCrpt).map corruptBytes)
    (by simp [netemFields]) (by decide)
  refine ⟨rfl, rfl, rfl, rfl, rfl, rfl, ?_, ?_, ?_⟩
  · show ((tb TCA_NETEM_CORR).map (readCorr buf)).getD ⟨0, 0, 0⟩ = netem.qnmCorr
    rw [hcorr.same fun _ _ _ _ hat => read_corr hat, optIf_getD corr_zero]
  · show ((tb TCA_NETEM_REORDER).map (readReorder buf)).getD ⟨0, 0⟩ = netem.qnmRo
    rw [hro.same fun _ _ _ _ hat => read_reorder hat, optIf_getD hchecked.ro]
  · show ((tb TCA_NETEM_CORRUPT).map (readCorrupt buf)).getD ⟨0, 0⟩ = netem.qnmCrpt
    rw [hcrpt.same fun _ _ _ _ hat => read_corrupt hat, optIf_getD hchecked.crpt]

/-- the parser, where only the structure is there -/
theorem parser_plain {opts : List UInt8} (h : opts.length = SIZEOF_QOPT) (netem : RtnlNetem) :
    netemMsgParser opts netem = .ok (takeQopt (memOf opts) netem) := by
  have hzero : ¬ 0 < toInt32 ((opts.length : ℤ) - SIZEOF_QOPT) := by
    rw [h]
    decide
  unfold netemMsgParser
  rw [if_neg h.not_lt, if_neg hzero]

/-- and where attributes are behind it, and can be indexed -/
theorem parser_attrs {opts rest : List UInt8} {tb : Index} (hlen : opts.length = SIZEOF_QOPT) (hpos : 0 < rest.length)
    (hint : toInt32 (rest.length : ℤ) = rest.length)
    (hparse : parseBytes (memOf rest) (toInt32 rest.length) TCA_NETEM_MAX netemPolicy = (0, tb)) (netem : RtnlNetem) :
    netemMsgParser (opts ++ rest) netem = .ok (takeAttrs (memOf rest) tb (takeQopt (memOf (opts ++ rest)) netem)) := by
  have hnot : ¬ (opts ++ rest).length < SIZEOF_QOPT := by
    rw [List.length_append]
    omega
  have hsub : ((opts ++ rest).length : ℤ) - SIZEOF_QOPT = rest.length := by
    rw [List.length_append, hlen, Nat.cast_add, add_sub_cancel_left]
  have hdrop : (opts ++ rest).drop SIZEOF_QOPT = rest := by rw [← hlen, List.drop_left]
  have hposInt : 0 < toInt32 (rest.length : ℤ) := by omega
  unfold netemMsgParser
  rw [if_neg hnot, hsub, if_pos hposInt, hdrop]
  dsimp only
  rw [hparse, if_neg (lt_irrefl (0 : ℤ))]

/-- **The options**, read: the same configuration. -/
theorem parse_options {netem : RtnlNetem} (hchecked : Checked netem) (hlimit : netem.qnmLimit ≠ 0)
    (hshort : (encLeaves (leavesOf (netemFields netem))).length ≤ 65535) :
    ∃ got, netemMsgParser (qopt netem ++ encLeaves (leavesOf (netemFields netem))) freshNetem = .ok got ∧ SameConf netem got := by
  have hlen := qopt_length netem
  by_cases hbare : Bare netem
  · rw [(no_leaves_iff netem).2 hbare, encLeaves_nil, List.append_nil, parser_plain hlen]
    exact ⟨_, rfl, by rw [takeQopt_qopt hlimit (seg_memOf _)]; exact same_plain hchecked hbare⟩
  · have hne : leavesOf (netemFields netem) ≠ [] := fun hnil => hbare ((no_leaves_iff netem).1 hnil)
    have hpos := List.length_pos_iff.2 (encLeaves_ne_nil hne)
    obtain ⟨tb, hparse, hidx⟩ := parseBytes_fields TCA_NETEM_MAX (netem_sendable hshort) (by omega)
    have hsame := same_attrs hchecked hidx
    generalize encLeaves (leavesOf (netemFields netem)) = rest at hparse hsame hpos hshort ⊢
    have hint : toInt32 (rest.length : ℤ) = rest.length := toInt32_of_mem (by omega) (by omega)
    rw [parser_attrs hlen hpos hint hparse, takeQopt_qopt hlimit (seg_append.1 (seg_memOf _)).1]
    exact ⟨_, rfl, hsame⟩

/-! ## Writing -/

theorem distBytes_length (netem : RtnlNetem) : (distBytes netem).length ≤ 131072 := by
  have hflat : ∀ d : List (BitVec 16), (d.flatMap fun v => u16Bytes v.toNat).length = 2 * d.length := by
    intro d
    induction d with
    | nil => rfl
    | cons v d ih =>
      rw [List.flatMap_cons, List.length_append, u16Bytes_length, ih, List.length_cons]
      omega
  unfold distBytes
  rw [hflat]
  cases netem.qnmDist with
  | none => exact Nat.zero_le _
  | some d =>
    have hshort := d.2
    unfold MAXDIST at hshort
    show 2 * d.1.length ≤ 131072
    omega

theorem payload_short (netem : RtnlNetem) : ∀ l ∈ leavesOf (netemFields netem), l.payload.length ≤ 1073741824 := by
  intro l hl
  obtain ⟨f, hf, -, hpay⟩ := mem_leavesOf.1 hl
  have hdist := distBytes_length netem
  simp only [netemFields, List.mem_cons, List.not_mem_nil, or_false] at hf
  rcases hf with rfl | rfl | rfl | rfl
  · obtain ⟨c, -, heq⟩ := Option.map_eq_some_iff.1 hpay.symm
    simp [← heq, corrBytes]
  · obtain ⟨c, -, heq⟩ := Option.map_eq_some_iff.1 hpay.symm
    simp [← heq, reorderBytes]
  · obtain ⟨c, -, heq⟩ := Option.map_eq_some_iff.1 hpay.symm
    simp [← heq, corruptBytes]
  · unfold optIf at hpay
    dsimp only at hpay
    split_ifs at hpay
    rw [Option.some.inj hpay]
    omega

/-- the length of the structure and of all attributes behind it -/
def span (netem : RtnlNetem) : ℕ := (encLeaves (netemLeaves netem)).length

theorem span_eq (netem : RtnlNetem) : span netem = 28 + (encLeaves (leavesOf (netemFields netem))).length := by
  have hqopt : align4 (4 + (qopt netem).length) = 28 := by
    rw [qopt_length]
    rfl
  rw [span, netemLeaves, encLeaves_cons, List.length_append, encLeaf_length, hqopt]

/-- the message before the length of the options is stored -/
structure Put (m m' : NlMsg) (netem : RtnlNetem) : Prop where
  tidy : Tidy m'
  len : m'.nlmsgLen = m.nlmsgLen + span netem
  fits : m'.nlmsgLen ≤ m'.nmSize
  below : ∀ i < m.nlmsgLen, m'.buf i = m.buf i
  opts : Seg m'.buf m.nlmsgLen (encLeaf TCA_OPTIONS (qopt netem))
  attrs : span netem ≤ 65535 → Seg m'.buf m.nlmsgLen (encLeaves (netemLeaves netem))

theorem putAll_put {netem : RtnlNetem} {m : NlMsg} (hm : Tidy m)
    (h : ¬ (putAll (-NLE_MSGSIZE) (netemLeaves netem) m).2 < 0) :
    Put m (putAll (-NLE_MSGSIZE) (netemLeaves netem) m).1 netem := by
  have hcode : -NLE_MSGSIZE < 0 := by decide
  have hqopt : (qopt netem).length = 24 := qopt_length netem
  by_cases hneg : (nlaPut m TCA_OPTIONS (qopt netem).length (qopt netem)).2 < 0
  · rw [netemLeaves, putAll, thenPut, if_pos hneg] at h
    exact absurd hcode h
  obtain ⟨hadded, hfits⟩ := nlaPut_added hm TCA_OPTIONS (by omega) hneg
  have hroom : Room m (align4 (4 + (qopt netem).length)) := by
    have hlen := hadded.len
    have hsize := hadded.size
    have hlt := hadded.tidy.lt
    exact ⟨by omega, by omega⟩
  obtain ⟨m1, hput, hw⟩ := nlaPut_room hm TCA_OPTIONS (by decide) (qopt netem) (by omega) hroom
  have hput' : nlaPut m (⟨TCA_OPTIONS, qopt netem⟩ : Leaf).type (⟨TCA_OPTIONS, qopt netem⟩ : Leaf).payload.length
      (⟨TCA_OPTIONS, qopt netem⟩ : Leaf).payload = (m1, 0) := hput
  rw [hput] at hfits
  rw [netemLeaves, putAll, hput', thenPut_ok] at h ⊢
  obtain ⟨hrest, hfits2⟩ := putAll_added hcode (payload_short netem) hw.tidy hfits h
  have hlen1 := hw.len
  have hlen2 := hrest.len
  have hopts : Seg (putAll (-NLE_MSGSIZE) (leavesOf (netemFields netem)) m1).1.buf m.nlmsgLen (encLeaf TCA_OPTIONS (qopt netem)) :=
    hw.seg.frame fun i _ hi => hrest.below i (by omega)
  refine ⟨hrest.tidy, ?_, hfits2, fun i hi => ?_, hopts, fun hshort => ?_⟩
  · rw [hlen2, hlen1, span, netemLeaves, encLeaves_cons, List.length_append, Nat.add_assoc]
  · rw [hrest.below i (by omega), hw.below i hi]
  · rw [span_eq] at hshort
    have hsize2 := hrest.size
    have hlt2 := hrest.tidy.lt
    have hroom1 : Room m1 (encLeaves (leavesOf (netemFields netem))).length := ⟨by omega, by omega⟩
    obtain ⟨m2, hall, hw2⟩ := putAll_room (-NLE_MSGSIZE) (netem_sendable (by omega)).wf hw.tidy hroom1
    rw [hall] at hopts ⊢
    rw [netemLeaves, encLeaves_cons]
    refine seg_append.2 ⟨hopts, ?_⟩
    rw [← hlen1]
    exact hw2.seg

/-- the message with which the writer starts: what is in it is the same -/
theorem Put.of_same {m m1 m' : NlMsg} {netem : RtnlNetem} (h : Put m1 m' netem) (hlen : m1.nlmsgLen = m.nlmsgLen)
    (hbuf : m1.buf = m.buf) : Put m m' netem :=
  ⟨h.tidy, hlen ▸ h.len, h.fits, fun i hi => hbuf ▸ h.below i (hlen ▸ hi), hlen ▸ h.opts, fun hshort => hlen ▸ h.attrs hshort⟩

omit [HostOrder] in
/-- a message in a buffer that was made larger -/
theorem grow_tidy {m m' : NlMsg} {bytes : ℕ} (hm : Tidy m) (h : growMsg m bytes = some m') :
    Tidy m' ∧ m'.nlmsgLen = m.nlmsgLen ∧ m'.buf = m.buf := by
  unfold growMsg at h
  generalize toU64 (toInt32 (m.nmSize + bytes)) = size at h
  by_cases hbig : PTRDIFF_MAX < size
  · rw [if_pos hbig] at h
    cases h
  · rw [if_neg hbig] at h
    rw [← Option.some.inj h]
    exact ⟨⟨hm.mod, hm.lt, not_lt.1 hbig⟩, rfl, rfl⟩

/-- **What the writer does**, if it does not fail -/
theorem fill_done {netem : RtnlNetem} {m : NlMsg} (hm : Tidy m) (h : ¬ (netemMsgFillRaw netem m).2 < 0) :
    ¬ (checkNetem netem).2 < 0 ∧ ∃ m', Put m m' (checkNetem netem).1 ∧ (netemMsgFillRaw netem m).1 = setSpan m' := by
  have hcode : -NLE_MSGSIZE < 0 := by decide
  have hput : ∀ m1 : NlMsg, Tidy m1 → ¬ (putNetem (checkNetem netem).1 m1).2 < 0 →
      ∃ m', Put m1 m' (checkNetem netem).1 ∧ (putNetem (checkNetem netem).1 m1).1 = setSpan m' := by
    intro m1 hm1 hok
    by_cases hneg : (putAll (-NLE_MSGSIZE) (netemLeaves (checkNetem netem).1) m1).2 < 0
    · rw [putNetem, thenPut, if_pos hneg] at hok
      exact absurd hcode hok
    · refine ⟨_, putAll_put hm1 hneg, ?_⟩
      rw [putNetem, thenPut, if_neg hneg]
  have hflag : Tidy (flagged m) := ⟨hm.mod, hm.lt, hm.size⟩
  unfold netemMsgFillRaw at h ⊢
  by_cases hcheck : (checkNetem netem).2 < 0
  · rw [if_pos hcheck] at h
    exact absurd hcheck h
  rw [if_neg hcheck] at h ⊢
  refine ⟨hcheck, ?_⟩
  by_cases hset : setDist (checkNetem netem).1 = true
  · rw [if_pos hset] at h ⊢
    cases hgrow : growMsg (flagged m) (distBytes (checkNetem netem).1).length with
    | none =>
      rw [hgrow, Option.elim_none] at h
      exact absurd (by decide : -NLE_NOMEM < 0) h
    | some m1 =>
      rw [hgrow, Option.elim_some] at h
      rw [Option.elim_some]
      obtain ⟨hm1, hlen, hbuf⟩ := grow_tidy hflag hgrow
      obtain ⟨m', hp, hspan⟩ := hput m1 hm1 h
      exact ⟨m', hp.of_same hlen hbuf, hspan⟩
  · rw [if_neg hset] at h ⊢
    obtain ⟨m', hp, hspan⟩ := hput (flagged m) hflag h
    exact ⟨m', hp.of_same (flagged_len m) (flagged_buf m), hspan⟩

/-! ## The length of the options -/

/-- the new length of the options, in 16 bits -/
def newSpan (m : NlMsg) : ℕ := toU16 (nlmsgAlign m.nlmsgLen - headAt)

omit [HostOrder] in
theorem newSpan_lt (m : NlMsg) : newSpan m < 65536 := by
  unfold newSpan toU16
  omega

omit [HostOrder] in
theorem newSpan_eq {m : NlMsg} (hm : Tidy m) (h : headAt ≤ m.nlmsgLen) : newSpan m = (m.nlmsgLen - headAt) % 65536 := by
  have htail : nlmsgAlign m.nlmsgLen = m.nlmsgLen := hm.tail
  unfold newSpan toU16
  rw [htail]
  omega

/-- the length where it is stored -/
theorem setSpan_field (m : NlMsg) : nlaLenField (setSpan m).buf headAt = newSpan m := by
  have hseg : Seg (setSpan m).buf headAt (u16Bytes (newSpan m)) := seg_write _ _ _
  rw [nlaLenField, hseg.getU16, Nat.mod_eq_of_lt (newSpan_lt m)]

/-- nothing but the length changes -/
theorem setSpan_out {m : NlMsg} {i : ℕ} (h : i < headAt ∨ headAt + 2 ≤ i) : (setSpan m).buf i = m.buf i := by
  refine write_out ?_
  rw [u16Bytes_length]
  exact h

/-- the end of the message is moved once more -/
theorem setSpan_len {m : NlMsg} (hm : Tidy m) (hback : nlaLenField m.buf headAt ≤ m.nlmsgLen) :
    ((setSpan m).nlmsgLen : ℤ) = m.nlmsgLen + newSpan m - nlaLenField m.buf headAt := by
  have hlt := hm.lt
  have hnew := newSpan_lt m
  have hlen : (setSpan m).nlmsgLen = toU32 (m.nlmsgLen + ((newSpan m : ℤ) - nlaLenField m.buf headAt)) := rfl
  rw [hlen]
  unfold toU32
  omega

/-! ## Requests -/

/-- `"netem"` -/
def netemKind : List UInt8 := [110, 101, 116, 101, 109]

/-- a qdisc of the kind -/
def netemQdisc (ifindex handle parent : BitVec 32) (chain : Option (BitVec 32)) : RtnlTc where
  tcIfindex := ifindex
  tcHandle := handle
  tcParent := parent
  tcKind := some netemKind
  tcChain := chain
  isKind := by
    intro k hk
    obtain rfl := Option.mem_some_iff.1 hk
    exact ⟨isStr_of_all rfl, by decide⟩

/-- where the options are -/
def optionsAt (tc : RtnlTc) : ℕ := NLMSG_HDRLEN + (tchdr tc ++ encLeaves (leavesOf (tcFields tc))).length

/-- **A request is right**: it ends in its buffer and behind its last attribute, and the options are all that was put for them and
read as the configuration. -/
structure Right (tc : RtnlTc) (netem : RtnlNetem) (msg : NlMsg) : Prop where
  fits : msg.nlmsgLen ≤ msg.nmSize
  ends : msg.nlmsgLen = optionsAt tc + span (checkNetem netem).1
  options : nlaType msg.buf (optionsAt tc) = TCA_OPTIONS
  spans : nlaLenField msg.buf (optionsAt tc) = span (checkNetem netem).1
  parses : ∃ got, netemMsgParser (nlaBytes msg.buf (optionsAt tc)) freshNetem = .ok got ∧ SameConf (checkNetem netem).1 got

theorem optionsAt_none (ifindex handle parent : BitVec 32) : optionsAt (netemQdisc ifindex handle parent none) = headAt := by
  have hleaves : leavesOf (tcFields (netemQdisc ifindex handle parent none)) = [⟨TCA_KIND, netemKind ++ [0]⟩] := rfl
  rw [optionsAt, List.length_append, tchdr_length, hleaves, encLeaves_cons, encLeaves_nil, List.append_nil, encLeaf_length]
  rfl

/-- the front of a request with a chain -/
def chainFront (tc : RtnlTc) : List UInt8 := tchdr tc ++ encLeaf TCA_KIND (netemKind ++ [0])

theorem chainFront_length (tc : RtnlTc) : NLMSG_HDRLEN + (chainFront tc).length = headAt := by
  rw [chainFront, List.length_append, tchdr_length, encLeaf_length]
  rfl

theorem chain_front (ifindex handle parent v : BitVec 32) :
    tchdr (netemQdisc ifindex handle parent (some v)) ++ encLeaves (leavesOf (tcFields (netemQdisc ifindex handle parent (some v)))) =
      chainFront (netemQdisc ifindex handle parent (some v)) ++ encLeaf TCA_CHAIN (u32Bytes v.toNat) := by
  have hleaves : leavesOf (tcFields (netemQdisc ifindex handle parent (some v))) =
      [⟨TCA_KIND, netemKind ++ [0]⟩, ⟨TCA_CHAIN, u32Bytes v.toNat⟩] := rfl
  rw [hleaves, encLeaves_cons, encLeaves_cons, encLeaves_nil, List.append_nil, chainFront, List.append_assoc]

theorem optionsAt_some (ifindex handle parent v : BitVec 32) :
    optionsAt (netemQdisc ifindex handle parent (some v)) = headAt + 8 := by
  have hfront := chainFront_length (netemQdisc ifindex handle parent (some v))
  rw [optionsAt, chain_front, List.length_append, ← Nat.add_assoc, hfront, encLeaf_length, u32Bytes_length]
  rfl

omit [HostOrder] in
theorem bare_checked {netem : RtnlNetem} (h : ¬ (checkNetem netem).2 < 0) : Bare (checkNetem netem).1 ↔ Bare netem := by
  obtain ⟨gap, heq⟩ := (checks_keep h).2
  rw [heq]
  exact ⟨fun h => ⟨h.corr, h.reorder, h.corrupt, h.dist⟩, fun h => ⟨h.corr, h.reorder, h.corrupt, h.dist⟩⟩

theorem span_bare (netem : RtnlNetem) : span netem = 28 ↔ Bare netem := by
  rw [← no_leaves_iff, span_eq]
  constructor
  · intro h
    by_contra hne
    have hpos := List.length_pos_iff.2 (encLeaves_ne_nil hne)
    omega
  · intro h
    rw [h, encLeaves_nil, List.length_nil]

/-- **A request**: where its options start, and what the writer left in front of storing the length -/
theorem request_put {defaultMsgSize type flags : ℕ} {tc : RtnlTc} {netem : RtnlNetem} {msg : NlMsg}
    (h : rtnlTcMsgBuild defaultMsgSize type flags tc (.raw (netemMsgFillRaw netem)) = .ok msg) :
    ¬ (checkNetem netem).2 < 0 ∧ ∃ m m', Seg m.buf NLMSG_HDRLEN (tchdr tc ++ encLeaves (leavesOf (tcFields tc))) ∧
      m.nlmsgLen = optionsAt tc ∧ Put m m' (checkNetem netem).1 ∧ msg = setSpan m' := by
  obtain ⟨m0, m, hfresh, hw, -, hok, hmsg⟩ := raw_front h
  obtain ⟨hcheck, m', hput, hspan⟩ := fill_done hw.tidy hok
  have hseg := hw.seg
  have hlen := hw.len
  rw [hfresh.len] at hseg hlen
  exact ⟨hcheck, m, m', hseg, hlen, hput, hmsg.symm.trans hspan⟩

/-- the length of the options, before it is stored again -/
theorem put_field {m m' : NlMsg} {netem : RtnlNetem} (h : Put m m' netem) :
    nlaLenField m'.buf m.nlmsgLen = 28 ∧ nlaTypeField m'.buf m.nlmsgLen = TCA_OPTIONS := by
  obtain ⟨hbody, -⟩ := seg_append.1 h.opts
  obtain ⟨hhdr, -⟩ := seg_append.1 hbody
  rw [qopt_length] at hhdr
  exact header_fields hhdr (by decide) (by decide)

/-- **The options are right**, if nothing but the kind stands in front of them, and they are not too long -/
theorem options_right {m m' : NlMsg} {netem : RtnlNetem} (hput : Put m m' netem) (hat : m.nlmsgLen = headAt)
    (hchecked : Checked netem) (hlimit : netem.qnmLimit ≠ 0) (hshort : span netem ≤ 65535) :
    nlaLenField (setSpan m').buf headAt = span netem ∧
      ∃ got, netemMsgParser (nlaBytes (setSpan m').buf headAt) freshNetem = .ok got ∧ SameConf netem got := by
  have hlen := hput.len
  have hspan := span_eq netem
  have hfield : nlaLenField (setSpan m').buf headAt = span netem := by
    rw [setSpan_field, newSpan_eq hput.tidy (by omega), hlen, hat, Nat.add_sub_cancel_left, Nat.mod_eq_of_lt (by omega)]
  refine ⟨hfield, ?_⟩
  have hseg : Seg m'.buf (headAt + 4) (qopt netem ++ encLeaves (leavesOf (netemFields netem))) := by
    have hall := hput.attrs hshort
    rw [hat, netemLeaves, encLeaves_cons] at hall
    obtain ⟨hleaf, hrest⟩ := seg_append.1 hall
    obtain ⟨hbody, -⟩ := seg_append.1 hleaf
    obtain ⟨-, hdata⟩ := seg_append.1 hbody
    rw [nlaHeader_length] at hdata
    refine seg_append.2 ⟨hdata, ?_⟩
    rw [encLeaf_length, qopt_length] at hrest
    rw [qopt_length]
    exact hrest
  have hseg' : Seg (setSpan m').buf (headAt + 4) (qopt netem ++ encLeaves (leavesOf (netemFields netem))) :=
    hseg.frame fun i hi _ => setSpan_out (Or.inr (by omega))
  have hbytes : nlaBytes (setSpan m').buf headAt = qopt netem ++ encLeaves (leavesOf (netemFields netem)) := by
    have hn : (nlaLen (setSpan m').buf headAt).toNat = (qopt netem ++ encLeaves (leavesOf (netemFields netem))).length := by
      rw [nlaLen, hfield, List.length_append, qopt_length, hspan, NLA_HDRLEN, SIZEOF_QOPT]
      omega
    rw [nlaBytes, hn]
    exact hseg'.readBytes
  rw [hbytes]
  exact parse_options hchecked hlimit (by omega)

/-- **Without a chain** -/
theorem right_none {m m' : NlMsg} {netem : RtnlNetem} {ifindex handle parent : BitVec 32} (hcheck : ¬ (checkNetem netem).2 < 0)
    (hlimit : netem.qnmLimit ≠ 0) (hat : m.nlmsgLen = optionsAt (netemQdisc ifindex handle parent none))
    (hput : Put m m' (checkNetem netem).1) :
    Right (netemQdisc ifindex handle parent none) netem (setSpan m') ↔ Bare netem := by
  obtain ⟨hchecked, gap, hkeep⟩ := checks_keep hcheck
  have hlimit' : (checkNetem netem).1.qnmLimit ≠ 0 := by
    rw [hkeep]
    exact hlimit
  rw [← bare_checked hcheck, ← span_bare]
  rw [optionsAt_none] at hat
  have hopts := put_field hput
  rw [hat] at hopts
  have hlen := hput.len
  have hspan := span_eq (checkNetem netem).1
  have hend := setSpan_len hput.tidy (by rw [hopts.1]; omega)
  have hnew := newSpan_eq hput.tidy (by omega)
  rw [hlen, hat, Nat.add_sub_cancel_left] at hnew
  rw [hopts.1, hlen, hat, hnew] at hend
  constructor
  · intro h
    -- the end is right only if nothing was added to the length, and the length only if it was not cut
    have hends := h.ends
    have hspans := h.spans
    rw [optionsAt_none] at hends hspans
    rw [setSpan_field, newSpan_eq hput.tidy (by omega), hlen, hat, Nat.add_sub_cancel_left] at hspans
    omega
  · intro h
    obtain ⟨hfield, hparse⟩ := options_right hput hat hchecked hlimit' (by omega)
    have hsame : (setSpan m').nlmsgLen = m'.nlmsgLen := by omega
    have htype : nlaTypeField (setSpan m').buf headAt = nlaTypeField m'.buf headAt := by
      have hin : ∀ i, i < 2 → (setSpan m').buf (headAt + 2 + i) = m'.buf (headAt + 2 + i) := fun i _ =>
        setSpan_out (Or.inr (by omega))
      exact Libnl.Window.Same.getU16 hin
    refine ⟨?_, ?_, ?_, ?_, ?_⟩
    · rw [hsame]
      exact hput.fits
    · rw [hsame, hlen, hat, optionsAt_none]
    · rw [optionsAt_none, nlaType, htype, hopts.2]
      rfl
    · rw [optionsAt_none, hfield]
    · rw [optionsAt_none]
      exact hparse

/-- **With a chain** it is the length of the chain that is stored to -/
theorem wrong_some {m m' : NlMsg} {netem : RtnlNetem} {ifindex handle parent v : BitVec 32}
    (hfront : Seg m.buf NLMSG_HDRLEN (tchdr (netemQdisc ifindex handle parent (some v)) ++
      encLeaves (leavesOf (tcFields (netemQdisc ifindex handle parent (some v))))))
    (hat : m.nlmsgLen = optionsAt (netemQdisc ifindex handle parent (some v))) (hput : Put m m' (checkNetem netem).1) :
    ¬ Right (netemQdisc ifindex handle parent (some v)) netem (setSpan m') := by
  intro h
  rw [chain_front] at hfront
  obtain ⟨-, hchain⟩ := seg_append.1 hfront
  rw [chainFront_length] at hchain
  rw [optionsAt_some] at hat
  have hchain' : Seg m'.buf headAt (encLeaf TCA_CHAIN (u32Bytes v.toNat)) := hchain.frame fun i _ hi => by
    rw [encLeaf_length, u32Bytes_length] at hi
    exact hput.below i (by rw [hat]; exact hi)
  obtain ⟨hbody, -⟩ := seg_append.1 hchain'
  obtain ⟨hhdr, -⟩ := seg_append.1 hbody
  rw [u32Bytes_length] at hhdr
  have hold := (header_fields hhdr (by decide) (by decide)).1
  have hopts := (put_field hput).1
  rw [hat] at hopts
  have hspans := h.spans
  have hends := h.ends
  rw [optionsAt_some] at hspans hends
  have hsame : nlaLenField (setSpan m').buf (headAt + 8) = nlaLenField m'.buf (headAt + 8) :=
    Libnl.Window.Same.getU16 fun i _ => setSpan_out (Or.inr (by omega))
  have hlen := hput.len
  have hend := setSpan_len hput.tidy (by rw [hold]; omega)
  have hnew := newSpan_eq hput.tidy (by omega)
  omega

/-- **Requests for the network emulator.** A request is right if and only if the qdisc has no chain, and the configuration nothing
that goes into an attribute. -/
theorem netem_request_iff (defaultMsgSize type flags : ℕ) (ifindex handle parent : BitVec 32) (chain : Option (BitVec 32))
    (netem : RtnlNetem) (msg : NlMsg) (hlimit : netem.qnmLimit ≠ 0)
    (hbuild : rtnlTcMsgBuild defaultMsgSize type flags (netemQdisc ifindex handle parent chain) (.raw (netemMsgFillRaw netem)) =
      .ok msg) :
    Right (netemQdisc ifindex handle parent chain) netem msg ↔ chain = none ∧ Bare netem := by
  obtain ⟨hcheck, m, m', hfront, hat, hput, rfl⟩ := request_put hbuild
  cases chain with
  | none =>
    rw [right_none hcheck hlimit hat hput]
    exact (and_iff_right rfl).symm
  | some v => exact iff_of_false (wrong_some hfront hat hput) fun h => absurd h.1 (Option.some_ne_none v)

end

/-- a delay of 100 ms, and nothing else -/
def delayed : RtnlNetem := { freshNetem with qnmLimit := 1000, qnmLatency := 100000 }

/-- packets that are corrupted -/
def corrupting : RtnlNetem := { freshNetem with qnmLimit := 1000, qnmCrpt := ⟨1000, 0⟩ }

/-- a request to add a configuration to the device 2 -/
def netemRequest (netem : RtnlNetem) : Except ℤ NlMsg :=
  @rtnlTcMsgBuild ⟨false⟩ 4096 36 1024 (netemQdisc 2 0 0xFFFFFFFF none) (@Fill.raw (@netemMsgFillRaw ⟨false⟩ netem))

theorem built_of_isOk {r : Except ℤ NlMsg} (h : r.isOk = true) : ∃ msg, r = .ok msg := by
  cases r with
  | error code => exact absurd h Bool.false_ne_true
  | ok msg => exact ⟨msg, rfl⟩

/-- a request that is right -/
theorem delay_is_right : ∃ msg, netemRequest delayed = .ok msg ∧ @Right ⟨false⟩ (netemQdisc 2 0 0xFFFFFFFF none) delayed msg := by
  obtain ⟨msg, hbuild⟩ : ∃ msg, netemRequest delayed = .ok msg := built_of_isOk (by rfl)
  exact ⟨msg, hbuild, (@netem_request_iff ⟨false⟩ 4096 36 1024 2 0 0xFFFFFFFF none delayed msg (by decide) hbuild).2
    ⟨rfl, rfl, rfl, rfl, rfl⟩⟩

/-- **With corruption** a request does not end where its last attribute does. -/
theorem corruption_overshoots : ¬ ∀ (defaultMsgSize type flags : ℕ) (ifindex handle parent : BitVec 32)
    (chain : Option (BitVec 32)) (netem : RtnlNetem) (msg : NlMsg), netem.qnmLimit ≠ 0 →
    @rtnlTcMsgBuild ⟨false⟩ defaultMsgSize type flags (netemQdisc ifindex handle parent chain)
      (@Fill.raw (@netemMsgFillRaw ⟨false⟩ netem)) = .ok msg →
    @Right ⟨false⟩ (netemQdisc ifindex handle parent chain) netem msg := by
  intro h
  let order : HostOrder := ⟨false⟩
  obtain ⟨msg, hbuild⟩ : ∃ msg, netemRequest corrupting = .ok msg := built_of_isOk (by rfl)
  have hlimit : corrupting.qnmLimit ≠ 0 := by decide
  have hright := h 4096 36 1024 2 0 0xFFFFFFFF none corrupting msg hlimit hbuild
  obtain ⟨hcheck, m, m', -, hat, hput, hspan⟩ := request_put hbuild
  rw [hspan] at hright
  have hcorrupt := ((right_none hcheck hlimit hat hput).1 hright).corrupt
  exact absurd hcorrupt (by decide)

end Libnl.Netem
