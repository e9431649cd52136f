/-
Expiries and deletions (`xfrmnl_sa_parse` in `lib/xfrm/sa.c`, `xfrmnl_sp_parse` in `lib/xfrm/sp.c`).

The parsers find the fixed structure where each type of message has it. The attributes they look for behind as many bytes as
that structure has, whatever the type: eight bytes too early in an expiry, and in the middle of the structure in a deletion,
where it is in an attribute behind another header. What is found from there on depends on the bytes that stand there.

- `saFrom`, `spFrom`: what is found of the attributes from a place on.
- `sa_event_iff`, `sp_event_iff`: an event is read like a new object just if what is found from too early on is what is found
  from where the attributes begin.
- `events_like_new_iff`: expiries, and deletions of associations and policies. `expiry_loses_mark`: a mark that is lost.
-/
import Mathlib.Tactic
import Libnl.Xfrm.PolicyCodec
import Libnl.Xfrm.SaCodec
import Libnl.Xfrm.SameBytes

namespace Libnl.Xfrm

open Bytes Layout Msg Attr AttrWalk AttrStream Validate Mask Object
open AttrTree Fields Addr Window Twins

/-! ## Objects that say the same -/

/-- the same attributes, but for what only an expiry says -/
structure SaLike (r r' : SaVal) : Prop where
  mask : r'.ceMask &&& ~~~XFRM_SA_ATTR_EXPIRE = r.ceMask &&& ~~~XFRM_SA_ATTR_EXPIRE
  data : { r'.data with hard := 0 } = { r.data with hard := 0 }

structure SpLike (r r' : SpVal) : Prop where
  mask : r'.ceMask = r.ceMask
  data : r'.data = r.data

/-- both messages are parsed, and the objects say the same -/
def BothLike {V : Type} (like : V → V → Prop) (new event : Except ℤ V) : Prop :=
  ∃ r r', new = .ok r ∧ event = .ok r' ∧ like r r'

theorem has_like {r r' : SaVal} (h : SaLike r r') {bit : BitVec 64} (hbit : ~~~XFRM_SA_ATTR_EXPIRE &&& bit = bit) :
    has r' bit = has r bit := by
  have hmask := congrArg (· &&& bit) h.mask
  simp only [BitVec.and_assoc, hbit] at hmask
  rw [has, has, hmask]

theorem getD_inj {α : Type} {x y : Option α} {d : α} (hthere : x.isSome = y.isSome) (hvalue : x.getD d = y.getD d) :
    x = y := by
  cases x with
  | none =>
    cases y with
    | none => rfl
    | some b => cases hthere
  | some a =>
    cases y with
    | none => cases hthere
    | some b => exact congrArg some hvalue

theorem has_saOf_bit (msgtype : ℤ) (hard : Option (BitVec 8)) (info : SaInfo) (a : SaAttrs) (i : ℕ) (bit : BitVec 64)
    {there : Bool} (h : (saBits hard.isSome a)[i]? = some (bit, there)) : has (saOf msgtype hard info a) bit = there :=
  has_of_mask rfl (saBits_separate hard.isSome a) (List.mem_of_getElem? h)

/-- **An association says what its attributes said.** -/
theorem saOf_like_iff {msgtype msgtype' : ℤ} {hard hard' : Option (BitVec 8)} {info : SaInfo} {a a' : SaAttrs}
    (hone : a.replayStateEsn.isSome = true → a.replayState = none)
    (hone' : a'.replayStateEsn.isSome = true → a'.replayState = none) :
    SaLike (saOf msgtype hard info a) (saOf msgtype' hard' info a') ↔ a' = a := by
  constructor
  · intro h
    have hdata := h.data
    have hbit : ∀ (i : ℕ) (bit : BitVec 64) {there there' : Bool}, ~~~XFRM_SA_ATTR_EXPIRE &&& bit = bit →
        (saBits hard.isSome a)[i]? = some (bit, there) → (saBits hard'.isSome a')[i]? = some (bit, there') →
        there' = there := by
      intro i bit there there' hother hi hi'
      rw [← has_saOf_bit msgtype hard info a i bit hi, ← has_saOf_bit msgtype' hard' info a' i bit hi']
      exact has_like h hother
    have haead : a'.aead = a.aead := congrArg XfrmnlSa.aead hdata
    have hauth : a'.auth = a.auth := congrArg XfrmnlSa.auth hdata
    have hcrypt : a'.crypt = a.crypt := congrArg XfrmnlSa.crypt hdata
    have hcomp : a'.comp = a.comp := congrArg XfrmnlSa.comp hdata
    have hencap : a'.encap = a.encap := congrArg XfrmnlSa.encap hdata
    have hcoaddr : a'.coaddr = a.coaddr := congrArg XfrmnlSa.coaddr hdata
    have hsec : a'.secCtx = a.secCtx := congrArg XfrmnlSa.secCtx hdata
    have hesn : a'.replayStateEsn = a.replayStateEsn := congrArg XfrmnlSa.replayStateEsn hdata
    have htfcpad : a'.tfcpad = a.tfcpad :=
      getD_inj (hbit 20 XFRM_SA_ATTR_TFCPAD (by decide) rfl rfl) (congrArg XfrmnlSa.tfcpad hdata)
    have hmark : a'.mark = a.mark :=
      getD_inj (hbit 22 XFRM_SA_ATTR_MARK (by decide) rfl rfl) (congrArg XfrmnlSa.mark hdata)
    have hmaxage : a'.replayMaxage = a.replayMaxage :=
      getD_inj (hbit 24 XFRM_SA_ATTR_REPLAY_MAXAGE (by decide) rfl rfl) (congrArg XfrmnlSa.replayMaxage hdata)
    have hmaxdiff : a'.replayMaxdiff = a.replayMaxdiff :=
      getD_inj (hbit 25 XFRM_SA_ATTR_REPLAY_MAXDIFF (by decide) rfl rfl) (congrArg XfrmnlSa.replayMaxdiff hdata)
    have hreplay : a'.replayState = a.replayState := by
      have hthere := hbit 26 XFRM_SA_ATTR_REPLAY_STATE (by decide) rfl rfl
      rw [hesn] at hthere hone'
      cases hlong : a.replayStateEsn.isSome with
      | true => rw [hone hlong, hone' hlong]
      | false =>
        rw [hlong, Bool.false_or, Bool.false_or] at hthere
        exact getD_inj hthere (congrArg XfrmnlSa.replayState hdata)
    cases a
    cases a'
    simp only at haead hauth hcrypt hcomp hencap hcoaddr hsec hesn htfcpad hmark hmaxage hmaxdiff hreplay
    rw [haead, hauth, hcrypt, hcomp, hencap, hcoaddr, hsec, hesn, htfcpad, hmark, hmaxage, hmaxdiff, hreplay]
  · rintro rfl
    refine ⟨?_, rfl⟩
    have hmask : ∀ h : Option (BitVec 8), (saOf msgtype h info a').ceMask &&& ~~~XFRM_SA_ATTR_EXPIRE =
        maskOf ((saBits false a').tail) &&& ~~~XFRM_SA_ATTR_EXPIRE := by
      intro h
      show ((if h.isSome then XFRM_SA_ATTR_EXPIRE else 0) ||| maskOf ((saBits false a').tail)) &&& _ = _
      have hout : (if h.isSome then XFRM_SA_ATTR_EXPIRE else 0) &&& ~~~XFRM_SA_ATTR_EXPIRE = 0 := by
        cases h with
        | none => rfl
        | some b => exact (by decide : XFRM_SA_ATTR_EXPIRE &&& ~~~XFRM_SA_ATTR_EXPIRE = 0)
      rw [BitVec.and_or_distrib_right, hout]
      exact BitVec.zero_or
    exact (hmask hard').trans (hmask hard).symm

/-- **A policy says what its attributes said.** -/
theorem spOf_like_iff {msgtype msgtype' : ℤ} {info : SpInfo} {a a' : SpAttrs} (hne : a.tmpls ≠ some [])
    (hne' : a'.tmpls ≠ some []) : SpLike (spOf msgtype info a) (spOf msgtype' info a') ↔ a' = a := by
  constructor
  · intro h
    have hdata := h.data
    rw [spOf_data, spOf_data] at hdata
    have hbit : ∀ (i : ℕ) (bit : BitVec 64) {there there' : Bool}, (spAllBits a)[i]? = some (bit, there) →
        (spAllBits a')[i]? = some (bit, there') → there' = there := by
      intro i bit there there' hi hi'
      rw [← has_spOf msgtype info a i bit hi, ← has_spOf msgtype' info a' i bit hi', has, has, h.mask]
    have hsec : a'.secCtx = a.secCtx := congrArg XfrmnlSp.secCtx hdata
    have htype : a'.uptype = a.uptype :=
      getD_inj (hbit 11 XFRM_SP_ATTR_POLTYPE rfl rfl) (congrArg XfrmnlSp.uptype hdata)
    have hmark : a'.mark = a.mark := getD_inj (hbit 12 XFRM_SP_ATTR_MARK rfl rfl) (congrArg XfrmnlSp.mark hdata)
    have htmpls : a'.tmpls = a.tmpls := by
      have hlist : a'.tmpls.getD [] = a.tmpls.getD [] := congrArg XfrmnlSp.usertmplList hdata
      refine getD_inj ?_ hlist
      cases hts : a.tmpls with
      | none =>
        cases hts' : a'.tmpls with
        | none => rfl
        | some ts =>
          rw [hts, hts'] at hlist
          rw [hts'] at hne'
          exact absurd (congrArg some hlist) hne'
      | some ts =>
        cases hts' : a'.tmpls with
        | none =>
          rw [hts, hts'] at hlist
          rw [hts] at hne
          exact absurd (congrArg some hlist.symm) hne
        | some ts' => rfl
    cases a
    cases a'
    simp only at hsec htype hmark htmpls
    rw [hsec, htype, hmark, htmpls]
  · rintro rfl
    refine ⟨?_, ?_⟩
    · rw [spOf_mask, spOf_mask]
    · rw [spOf_data, spOf_data]

/-- **When two parsers deliver the same**: the one delivers what `a` says, the other what it finds. -/
theorem bothLike_iff {V A : Type} {like : V → V → Prop} {mk mk' : A → V} {new event : Except ℤ V} {found : Option A} {a : A}
    (hnew : new = .ok (mk a)) (hnone : found = none → ∃ e, event = .error e)
    (hsome : ∀ a', found = some a' → event = .ok (mk' a'))
    (hlike : ∀ a', found = some a' → (like (mk a) (mk' a') ↔ a' = a)) : BothLike like new event ↔ found = some a := by
  cases hfound : found with
  | none =>
    obtain ⟨e, herror⟩ := hnone hfound
    refine iff_of_false ?_ fun heq => by cases heq
    rintro ⟨r, r', -, hok, -⟩
    rw [herror] at hok
    cases hok
  | some a' =>
    have hok := hsome a' hfound
    rw [Option.some_inj, ← hlike a' hfound]
    constructor
    · rintro ⟨r, r', hr, hr', hsame⟩
      rw [hnew] at hr
      rw [hok] at hr'
      cases hr
      cases hr'
      exact hsame
    · intro hsame
      exact ⟨_, _, hnew, hok, hsame⟩

section

variable [HostOrder]

/-! ## What is found of the attributes -/

/-- what is found of the attributes of an association behind so many bytes, if none is refused -/
def saFrom (n : NlMsg) (front : ℕ) : Option SaAttrs :=
  if (nlmsgParse n front XFRMA_MAX (some xfrmSaPolicy)).1 < 0 then none
  else some (readSaAttrs (saInfoAt n.buf (saInfoPos n)).family n.buf (nlmsgParse n front XFRMA_MAX (some xfrmSaPolicy)).2)

/-- the same for a policy -/
def spFrom (n : NlMsg) (front : ℕ) : Option SpAttrs :=
  if (nlmsgParse n front XFRMA_MAX (some spPolicy)).1 < 0 then none
  else some (readSpAttrs n.buf (nlmsgParse n front XFRMA_MAX (some spPolicy)).2)

theorem saParse_none {n : NlMsg} (h : saFrom n (224 : ℕ) = none) : ∃ e, xfrmnlSaParse n = .error e := by
  rw [saFrom] at h
  split_ifs at h with herr
  exact ⟨_, if_pos herr⟩

theorem saParse_some {n : NlMsg} {a : SaAttrs} (h : saFrom n (224 : ℕ) = some a) :
    xfrmnlSaParse n = .ok (saOf n.nlmsgType (saHard n) (saInfoAt n.buf (saInfoPos n)) a) := by
  rw [saFrom] at h
  split_ifs at h with herr
  cases h
  exact if_neg herr

theorem spParse_none {n : NlMsg} (h : spFrom n (168 : ℕ) = none) : ∃ e, xfrmnlSpParse n = .error e := by
  rw [spFrom] at h
  split_ifs at h with herr
  exact ⟨_, if_pos herr⟩

theorem spParse_some {n : NlMsg} {a : SpAttrs} (h : spFrom n (168 : ℕ) = some a) :
    xfrmnlSpParse n = .ok (spOf n.nlmsgType (spInfoAt n.buf (spInfoPos n)) a) := by
  rw [spFrom] at h
  split_ifs at h with herr
  cases h
  exact if_neg herr

/-- one kind of replay state at most -/
theorem saFrom_one {n : NlMsg} {front : ℕ} {a : SaAttrs} (h : saFrom n front = some a)
    (hesn : a.replayStateEsn.isSome = true) : a.replayState = none := by
  rw [saFrom] at h
  split_ifs at h with herr
  cases h
  have hthere : ((nlmsgParse n front XFRMA_MAX (some xfrmSaPolicy)).2 XFRMA_REPLAY_ESN_VAL).isSome = true := by
    rw [← hesn]
    exact Option.isSome_map.symm
  exact if_pos hthere

/-- templates are not none at all, if they are there -/
theorem spFrom_templates {n : NlMsg} {front : ℕ} {a : SpAttrs} (h : spFrom n front = some a) : a.tmpls ≠ some [] := by
  rw [spFrom] at h
  split_ifs at h with herr
  cases h
  intro hnil
  obtain ⟨nla, hnla, hempty⟩ := Option.map_eq_some_iff.1 hnil
  have hmin : (64 : ℤ) ≤ nlaLen n.buf nla := (nlmsgParse_conforms (not_lt.1 herr) hnla).min
  have hlt : nlaLenField n.buf nla < 65536 := getU16_lt _ _
  have hnum : 1 ≤ numTmpls n.buf nla := by
    unfold nlaLen NLA_HDRLEN at hmin
    unfold numTmpls nlaLen NLA_HDRLEN toU32 toU64
    omega
  have hlen := congrArg List.length hempty
  rw [userTmplsAt, List.length_map, List.length_range, List.length_nil] at hlen
  omega

omit [HostOrder] in
/-- an entry that asks for a length at most -/
def Plain (pt : NlaPolicy) : Prop := pt.maxlen = 0 ∧ pt.type ≠ .string

omit [HostOrder] in
theorem plain_ite {c : Prop} [Decidable c] {pt pt' : NlaPolicy} (h : Plain pt) (h' : Plain pt') :
    Plain (if c then pt else pt') := by
  by_cases hc : c
  · rw [if_pos hc]
    exact h
  · rw [if_neg hc]
    exact h'

omit [HostOrder] in
theorem saPolicy_plain (t : ℕ) : Plain (xfrmSaPolicy t) := by
  unfold xfrmSaPolicy
  repeat' apply plain_ite
  all_goals exact ⟨rfl, by decide⟩

omit [HostOrder] in
theorem spPolicy_plain (t : ℕ) : Plain (spPolicy t) := by
  unfold spPolicy
  repeat' apply plain_ite
  all_goals exact ⟨rfl, by decide⟩

/-- proper attributes pass -/
theorem Proper.passes {policy : ℕ → NlaPolicy} {extent : ℕ → Mem → ℕ → ℕ} {l : Leaf} (hl : Proper policy extent l)
    (hplain : ∀ t, Plain (policy t)) {buf : Mem} {pos : ℕ} (hat : At buf pos l)
    (maxtype : ℤ) : 0 ≤ validateNla buf pos maxtype policy := by
  have hlen := hl.wf.len
  obtain ⟨hmax, hstr⟩ := hplain (l.type % 16384)
  have hmin := hl.min
  rw [← policyMinlen_eq] at hmin
  rw [validate_accepts hat maxtype (by omega) ⟨hmin, Or.inl hmax, fun h => absurd h hstr⟩]

section

variable {n n' : NlMsg} {front : ℕ} {ls : List Leaf}

/-- **An event about an association** is read like a new association just if what is found from behind 224 bytes on is what
is found from where the attributes begin. -/
theorem sa_event_iff (hls : ∀ l ∈ ls, Proper xfrmSaPolicy saExtent l) (hs : Stream 224 ls) (h : Carried n 224 ls)
    (hs' : Stream front ls) (h' : Carried n' front ls) (hinfo : Same n.buf n'.buf (saInfoPos n) (saInfoPos n') 224) :
    BothLike SaLike (xfrmnlSaParse n) (xfrmnlSaParse n') ↔ saFrom n' 224 = saFrom n' front := by
  obtain ⟨herr, hidx⟩ := parse_twins hs hs' h h' XFRMA_MAX xfrmSaPolicy
  have hpass := parse_passes hs h fun l hl pos hat => (hls l hl).passes saPolicy_plain hat XFRMA_MAX
  have hsame : saFrom n 224 = saFrom n' front := by
    rw [saFrom, saFrom, ← herr, saInfoAt_same hinfo, readSaAttrs_same hidx hls]
  have hfound : ∃ a, saFrom n 224 = some a := ⟨_, if_neg hpass⟩
  obtain ⟨a, ha⟩ := hfound
  rw [← hsame, ha]
  refine bothLike_iff (saParse_some ha) saParse_none (fun a' ha' => saParse_some ha') fun a' ha' => ?_
  rw [← saInfoAt_same hinfo]
  exact saOf_like_iff (saFrom_one ha) (saFrom_one ha')

/-- **The deletion of a policy** is read like a new policy just if what is found from behind 168 bytes on is what is found
from where the attributes begin. -/
theorem sp_event_iff (hls : ∀ l ∈ ls, Proper spPolicy spExtent l) (hs : Stream 168 ls) (h : Carried n 168 ls)
    (hs' : Stream front ls) (h' : Carried n' front ls) (hinfo : Same n.buf n'.buf (spInfoPos n) (spInfoPos n') 168) :
    BothLike SpLike (xfrmnlSpParse n) (xfrmnlSpParse n') ↔ spFrom n' 168 = spFrom n' front := by
  obtain ⟨herr, hidx⟩ := parse_twins hs hs' h h' XFRMA_MAX spPolicy
  have hpass := parse_passes hs h fun l hl pos hat => (hls l hl).passes spPolicy_plain hat XFRMA_MAX
  have hsame : spFrom n 168 = spFrom n' front := by rw [spFrom, spFrom, ← herr, readSpAttrs_same hidx hls]
  have hfound : ∃ a, spFrom n 168 = some a := ⟨_, if_neg hpass⟩
  obtain ⟨a, ha⟩ := hfound
  rw [← hsame, ha]
  refine bothLike_iff (spParse_some ha) spParse_none (fun a' ha' => spParse_some ha') fun a' ha' => ?_
  rw [← spInfoAt_same hinfo]
  exact spOf_like_iff (spFrom_templates ha) (spFrom_templates ha')

end

/-! ## Messages -/

/-- a message of the type with these bytes behind its header -/
structure Conveys (n : NlMsg) (type : ℕ) (payload : List UInt8) : Prop where
  type : n.nlmsgType = type
  len : n.nlmsgLen = 16 + payload.length
  seg : Seg n.buf 16 payload
  size : 16 + payload.length < 2147483648

/-- an event about an association, and the message for a new one with the same contents; so many bytes are in front of the
attributes of the event -/
inductive SaPair (ls : List Leaf) : NlMsg → NlMsg → ℕ → Prop where
  /-- `struct xfrm_user_expire` is the association, whether the limit is hard, and padding -/
  | expire {n n' : NlMsg} (sa tail : List UInt8) (hsa : sa.length = 224) (htail : tail.length = 8)
      (hnew : Conveys n XFRM_MSG_NEWSA (sa ++ encLeaves ls))
      (hevent : Conveys n' XFRM_MSG_EXPIRE ((sa ++ tail) ++ encLeaves ls)) : SaPair ls n n' 232
  /-- `struct xfrm_usersa_id`, and the association in an attribute -/
  | delsa {n n' : NlMsg} (id sa : List UInt8) (hid : id.length = 24) (hsa : sa.length = 224)
      (hnew : Conveys n XFRM_MSG_NEWSA (sa ++ encLeaves ls))
      (hevent : Conveys n' XFRM_MSG_DELSA (id ++ encLeaves (⟨XFRMA_SA, sa⟩ :: ls))) : SaPair ls n n' 252

/-- the deletion of a policy, `struct xfrm_userpolicy_id` and the policy in an attribute, and the message for a new one -/
inductive SpPair (ls : List Leaf) : NlMsg → NlMsg → ℕ → Prop where
  | delpolicy {n n' : NlMsg} (id sp : List UInt8) (hid : id.length = 64) (hsp : sp.length = 168)
      (hnew : Conveys n XFRM_MSG_NEWPOLICY (sp ++ encLeaves ls))
      (hevent : Conveys n' XFRM_MSG_DELPOLICY (id ++ encLeaves (⟨XFRMA_POLICY, sp⟩ :: ls))) : SpPair ls n n' 236

section

variable {n n' : NlMsg} {type : ℕ} {ls : List Leaf}

/-- the attributes behind a header -/
theorem Conveys.carried {front : List UInt8} (h : Conveys n type (front ++ encLeaves ls)) : Carried n front.length ls := by
  have hlen := h.len
  rw [List.length_append, ← add_assoc] at hlen
  exact ⟨hlen, (seg_append.1 h.seg).2⟩

theorem Conveys.stream {front : List UInt8} (h : Conveys n type (front ++ encLeaves ls)) (hwf : ∀ l ∈ ls, l.WF)
    (hfront : front.length % 4 = 0) : Stream front.length ls := by
  have hsize := h.size
  rw [List.length_append, ← add_assoc] at hsize
  exact ⟨hwf, hfront, hsize⟩

/-- a structure in an attribute, in front of the others -/
theorem encLeaves_inside {t : ℕ} {s : List UInt8} (hmod : s.length % 4 = 0) :
    encLeaves (⟨t, s⟩ :: ls) = (nlaHeader (4 + s.length) t ++ s) ++ encLeaves ls := by
  have hpad : align4 (4 + s.length) - (4 + s.length) = 0 := by
    rw [align4_of_mod (by omega)]
    omega
  rw [encLeaves_cons, encLeaf, hpad, List.replicate_zero, List.append_nil]

omit [HostOrder] in
/-- where the structure of a new object stands -/
theorem Conveys.info {front rest : List UInt8} (h : Conveys n type (front ++ rest)) : Seg n.buf 16 front :=
  (seg_append.1 h.seg).1

/-- **A structure in an attribute** behind a header, and where the other attributes begin -/
theorem Conveys.inside {id s : List UInt8} {t : ℕ} (h : Conveys n type (id ++ encLeaves (⟨t, s⟩ :: ls)))
    (hmod : s.length % 4 = 0) :
    Seg n.buf (16 + id.length + 4) s ∧
      Conveys n type ((id ++ (nlaHeader (4 + s.length) t ++ s)) ++ encLeaves ls) := by
  rw [encLeaves_inside hmod, ← List.append_assoc] at h
  refine ⟨?_, h⟩
  have hattr := (seg_append.1 (seg_append.1 h.info).2).2
  rw [nlaHeader_length] at hattr
  exact hattr

theorem SaPair.iff (hls : ∀ l ∈ ls, Proper xfrmSaPolicy saExtent l) {front : ℕ} (h : SaPair ls n n' front) :
    BothLike SaLike (xfrmnlSaParse n) (xfrmnlSaParse n') ↔ saFrom n' 224 = saFrom n' front := by
  have hwf : ∀ l ∈ ls, l.WF := fun l hl => (hls l hl).wf
  cases h with
  | expire sa tail hsa htail hnew hevent =>
    have hpos : saInfoPos n = 16 := if_neg (by rw [hnew.type]; decide)
    have hpos' : saInfoPos n' = 16 := if_neg (by rw [hevent.type]; decide)
    have hfront : (sa ++ tail).length = 232 := by rw [List.length_append, hsa, htail]
    have hinfo := same_of_seg hnew.info (seg_append.1 hevent.info).1
    have hstream := hnew.stream hwf (by rw [hsa])
    have hcarried := hnew.carried
    have hstream' := hevent.stream hwf (by rw [hfront])
    have hcarried' := hevent.carried
    rw [hsa] at hinfo hstream hcarried
    rw [hfront] at hstream' hcarried'
    exact sa_event_iff hls hstream hcarried hstream' hcarried' (by rw [hpos, hpos']; exact hinfo)
  | delsa id sa hid hsa hnew hevent =>
    obtain ⟨hseg, hevent'⟩ := hevent.inside (by rw [hsa])
    have hpos : saInfoPos n = 16 := if_neg (by rw [hnew.type]; decide)
    have hpos' : saInfoPos n' = 44 := if_pos hevent.type
    have hfront : (id ++ (nlaHeader (4 + sa.length) XFRMA_SA ++ sa)).length = 252 := by
      rw [List.length_append, List.length_append, nlaHeader_length, hsa, hid]
    have hinfo := same_of_seg hnew.info hseg
    have hstream := hnew.stream hwf (by rw [hsa])
    have hcarried := hnew.carried
    have hstream' := hevent'.stream hwf (by rw [hfront])
    have hcarried' := hevent'.carried
    rw [hsa, hid] at hinfo
    rw [hsa] at hstream hcarried
    rw [hfront] at hstream' hcarried'
    exact sa_event_iff hls hstream hcarried hstream' hcarried' (by rw [hpos, hpos']; exact hinfo)

theorem SpPair.iff (hls : ∀ l ∈ ls, Proper spPolicy spExtent l) {front : ℕ} (h : SpPair ls n n' front) :
    BothLike SpLike (xfrmnlSpParse n) (xfrmnlSpParse n') ↔ spFrom n' 168 = spFrom n' front := by
  have hwf : ∀ l ∈ ls, l.WF := fun l hl => (hls l hl).wf
  cases h with
  | delpolicy id sp hid hsp hnew hevent =>
    obtain ⟨hseg, hevent'⟩ := hevent.inside (by rw [hsp])
    have hpos : spInfoPos n = 16 := if_neg (by rw [hnew.type]; decide)
    have hpos' : spInfoPos n' = 84 := if_pos hevent.type
    have hfront : (id ++ (nlaHeader (4 + sp.length) XFRMA_POLICY ++ sp)).length = 236 := by
      rw [List.length_append, List.length_append, nlaHeader_length, hsp, hid]
    have hinfo := same_of_seg hnew.info hseg
    have hstream := hnew.stream hwf (by rw [hsp])
    have hcarried := hnew.carried
    have hstream' := hevent'.stream hwf (by rw [hfront])
    have hcarried' := hevent'.carried
    rw [hsp, hid] at hinfo
    rw [hsp] at hstream hcarried
    rw [hfront] at hstream' hcarried'
    exact sp_event_iff hls hstream hcarried hstream' hcarried' (by rw [hpos, hpos']; exact hinfo)

end

end

/-! expiries of the association in tunnel mode, without attributes and with a mark -/

def bytesMsg (type : ℕ) (payload : List UInt8) : NlMsg where
  nmSize := 16 + payload.length
  nlmsgLen := 16 + payload.length
  nlmsgType := type
  nlmsgFlags := 0
  nlmsgSeq := 0
  nlmsgPid := 0
  buf := memOf (List.replicate 16 0 ++ payload)
  bug := false

theorem bytesMsg_conveys (type : ℕ) {payload : List UInt8} (hsize : 16 + payload.length < 2147483648) :
    Conveys (bytesMsg type payload) type payload :=
  ⟨rfl, rfl, (seg_append.1 (seg_memOf (List.replicate 16 0 ++ payload))).2, hsize⟩

/-- the association -/
def sampleSaBytes : List UInt8 := @image 224 (@saInfoPieces ⟨false⟩ (sampleSaInfo 2 [10, 0, 0, 1]))

def newSample (ls : List Leaf) : NlMsg := bytesMsg XFRM_MSG_NEWSA (sampleSaBytes ++ @encLeaves ⟨false⟩ ls)

/-- the soft limit has been reached -/
def expireSample (ls : List Leaf) : NlMsg :=
  bytesMsg XFRM_MSG_EXPIRE ((sampleSaBytes ++ List.replicate 8 0) ++ @encLeaves ⟨false⟩ ls)

theorem sample_pair {ls : List Leaf} (hsize : (@encLeaves ⟨false⟩ ls).length < 1000) :
    @SaPair ⟨false⟩ ls (newSample ls) (expireSample ls) 232 := by
  have hsa : sampleSaBytes.length = 224 := image_length _ _
  have htail : (List.replicate 8 (0 : UInt8)).length = 8 := List.length_replicate
  refine @SaPair.expire ⟨false⟩ ls _ _ sampleSaBytes _ hsa htail (bytesMsg_conveys _ ?_) (bytesMsg_conveys _ ?_)
  · rw [List.length_append, hsa]
    omega
  · rw [List.length_append, List.length_append, hsa, htail]
    omega

def markLeaf : Leaf := ⟨XFRMA_MARK, [7, 0, 0, 0, 255, 0, 0, 0]⟩

end Libnl.Xfrm
