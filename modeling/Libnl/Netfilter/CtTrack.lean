/-
Following connections through their notifications.

A connection is known by its original tuple and its zone. The cache does not look for it by those: objects are identical
when they agree in everything that `ct_compare` compares and both carry, which takes in the timeout, the status, the mark
and the counters. So a notification finds the object of its connection only as long as none of these changed, and it finds
that of another connection whose attributes happen not to differ.

- `ct_tracked_iff`: a cache has exactly the live connections all along exactly when, at every notification, the first live
  object in the order of the latest notifications that agrees with it is that of its connection.
- `ct_doubled`: an update with another timeout doubles the connection.
-/
import Mathlib.Tactic
import Libnl.Cache.Tracking
import Libnl.Netfilter.Ct

namespace Libnl.Ct

open Bytes Msg Attr AttrWalk Fields Object Addr Prefix Track
open Cache

/-! ## Identity -/

/-- the operations of every type there is -/
def ctOps (_ : ℕ) : ObjectOps NfnlCt := ctObjOps

def IPCTNL_MSG_CT_NEW : ℕ := 0
def IPCTNL_MSG_CT_GET : ℕ := 1
def IPCTNL_MSG_CT_DELETE : ℕ := 2

/-- `NFNLMSG_CT_TYPE` -/
def nfnlmsgCtType (type : ℕ) : ℤ := 256 + type

/-- `nfnl_ct_ops` -/
def nfnlCtOps : CacheOps :=
  ⟨0, [⟨nfnlmsgCtType IPCTNL_MSG_CT_NEW, .new⟩, ⟨nfnlmsgCtType IPCTNL_MSG_CT_GET, .get⟩,
    ⟨nfnlmsgCtType IPCTNL_MSG_CT_DELETE, .del⟩]⟩

/-- the attributes of a direction that `ct_compare` compares -/
def dirCompared (repl : Bool) : Compared NfnlCt :=
  [(srcAttr repl, fun a b => nlAddrCmp (a.dir repl).src (b.dir repl).src),
    (dstAttr repl, fun a b => nlAddrCmp (a.dir repl).dst (b.dir repl).dst),
    (srcPortAttr repl, fun a b => decide ((a.dir repl).proto.first ≠ (b.dir repl).proto.first)),
    (dstPortAttr repl, fun a b => decide (((a.dir repl).proto.type, (a.dir repl).proto.code) ≠
      ((b.dir repl).proto.type, (b.dir repl).proto.code))),
    (icmpIdAttr repl, fun a b => decide ((a.dir repl).proto.first ≠ (b.dir repl).proto.first)),
    (icmpTypeAttr repl, fun a b => decide ((a.dir repl).proto.type ≠ (b.dir repl).proto.type)),
    (icmpCodeAttr repl, fun a b => decide ((a.dir repl).proto.code ≠ (b.dir repl).proto.code)),
    (packetsAttr repl, fun a b => decide ((a.dir repl).packets ≠ (b.dir repl).packets)),
    (bytesAttr repl, fun a b => decide ((a.dir repl).bytes ≠ (b.dir repl).bytes))]

/-- the attributes that `ct_compare` compares -/
def ctCompared : Compared NfnlCt :=
  [(CT_ATTR_FAMILY, fun a b => decide (a.ctFamily ≠ b.ctFamily)),
    (CT_ATTR_PROTO, fun a b => decide (a.ctProto ≠ b.ctProto)),
    (CT_ATTR_TCP_STATE, fun a b => decide (a.tcpState ≠ b.tcpState)),
    (CT_ATTR_TIMEOUT, fun a b => decide (a.ctTimeout ≠ b.ctTimeout)),
    (CT_ATTR_MARK, fun a b => decide (a.ctMark ≠ b.ctMark)),
    (CT_ATTR_USE, fun a b => decide (a.ctUse ≠ b.ctUse)),
    (CT_ATTR_ID, fun a b => decide (a.ctId ≠ b.ctId))] ++ dirCompared false ++ dirCompared true ++
  [(CT_ATTR_STATUS, fun a b => decide (a.ctStatus ≠ b.ctStatus))]

theorem ctOps_compare (t : ℕ) : ComparesAll ctOps t ctCompared where
  noGet := rfl
  all := Or.inl rfl
  compare := by
    refine ⟨ctCompare, rfl, fun a b attrs => ?_⟩
    have hstrict : strict ID_COMPARISON = true := by decide
    unfold ctCompare ctCompared dirCompared
    simp only [hstrict, if_true, BitVec.ofNat_eq_ofNat, BitVec.or_eq_zero_iff, List.forall_mem_append,
      List.forall_mem_cons, List.not_mem_nil, false_imp_iff, implies_true, and_true, and_assoc]
    rfl
  low := by rfl

/-- **Identity of connections** -/
theorem identical_iff {v w : CtObj} (hv : v.ceOps = 0) (hw : w.ceOps = 0) :
    nlObjectIdentical ctOps v w = true ↔ Agree ctCompared v w := identical_iff_agree (ctOps_compare 0) hv hw

/-! ## What the parser delivers -/

theorem ok_bind {ε β γ : Type} {x : Except ε β} {f : β → Except ε γ} {r : γ} (h : x >>= f = .ok r) :
    ∃ a, x = .ok a ∧ f a = .ok r := by
  cases x with
  | error e => cases h
  | ok a => exact ⟨a, rfl, h⟩

/-- the type of the object and of its message -/
def Head (t : ℤ) (ct : CtObj) : Prop := ct.ceOps = 0 ∧ ct.ceMsgtype = t

section

variable {t : ℤ} {ct ct' : CtObj}

/-- setters leave both alone -/
theorem setIf_head {β : Type} {f : CtObj → β → CtObj} (o : Option β) (h : Head t ct)
    (hf : ∀ ct x, Head t ct → Head t (f ct x) := by exact fun _ _ hct => hct) : Head t (setIf o f ct) := by
  cases o with
  | none => exact h
  | some x => exact hf ct x h

theorem tryIf_head {β : Type} {f : CtObj → β → Except ℤ CtObj}
    (hf : ∀ ct x ct', Head t ct → f ct x = .ok ct' → Head t ct') {o : Option β} (h : Head t ct)
    (heq : tryIf o f ct = .ok ct') : Head t ct' := by
  cases o with
  | none =>
    cases heq
    exact h
  | some x => exact hf ct x ct' h heq

theorem ctSetAddr_head {addr : NlAddr} {attr : BitVec 64} {store : NfnlCt → NfnlCt} (h : Head t ct)
    (heq : ctSetAddr ct addr attr store = .ok ct') : Head t ct' := by
  unfold ctSetAddr at heq
  split_ifs at heq
  · cases heq
    exact h
  · cases heq
    exact h

variable [HostOrder] {buf : Mem}

theorem inAttr_ok {maxtype attr : ℕ} {policy : ℕ → NlaPolicy} {f : Index → Except ℤ CtObj}
    (h : inAttr buf maxtype policy attr f = .ok ct') : ∃ tb, f tb = .ok ct' := by
  unfold inAttr at h
  simp only at h
  split_ifs at h
  exact ⟨_, h⟩

theorem ctParseIp_head {repl : Bool} {attr : ℕ} (h : Head t ct) (heq : ctParseIp buf repl ct attr = .ok ct') :
    Head t ct' := by
  obtain ⟨tb, htb⟩ := inAttr_ok heq
  obtain ⟨ct1, h1, htb⟩ := ok_bind htb
  obtain ⟨ct2, h2, htb⟩ := ok_bind htb
  obtain ⟨ct3, h3, htb⟩ := ok_bind htb
  have hstep : ∀ (ct : CtObj) (a : ℕ) (ct' : CtObj) (addr : NlAddr) (attr : BitVec 64) (store : NfnlCt → NfnlCt),
      Head t ct → ctSetAddr ct addr attr store = .ok ct' → Head t ct' := fun _ _ _ _ _ _ => ctSetAddr_head
  have k1 := tryIf_head (fun ct a ct' => hstep ct a ct' _ _ _) h h1
  have k2 := tryIf_head (fun ct a ct' => hstep ct a ct' _ _ _) k1 h2
  have k3 := tryIf_head (fun ct a ct' => hstep ct a ct' _ _ _) k2 h3
  exact tryIf_head (fun ct a ct' => hstep ct a ct' _ _ _) k3 htb

theorem ctParseProto_head {repl : Bool} {attr : ℕ} (h : Head t ct) (heq : ctParseProto buf repl ct attr = .ok ct') :
    Head t ct' := by
  obtain ⟨tb, htb⟩ := inAttr_ok heq
  have hnum : Head t (if repl then ct else setIf (tb CTA_PROTO_NUM) (fun ct a => nfnlCtSetProto ct (nlaGetU8 buf a)) ct) := by
    cases repl with
    | true => exact h
    | false =>
      rw [if_neg Bool.false_ne_true]
      exact setIf_head _ h
  have hports := setIf_head (f := fun ct a => nfnlCtSetDstPort ct repl (nlaGetBe16 buf a)) (tb CTA_PROTO_DST_PORT)
    (setIf_head (f := fun ct a => nfnlCtSetSrcPort ct repl (nlaGetBe16 buf a)) (tb CTA_PROTO_SRC_PORT) hnum)
  simp only at htb
  split at htb
  · cases htb
    exact hports
  · cases htb
    exact setIf_head _ (setIf_head _ (setIf_head _ hports))

theorem ctParseTuple_head {repl : Bool} {attr : ℕ} (h : Head t ct) (heq : ctParseTuple buf repl ct attr = .ok ct') :
    Head t ct' := by
  obtain ⟨tb, htb⟩ := inAttr_ok heq
  obtain ⟨ct1, h1, htb⟩ := ok_bind htb
  exact tryIf_head (fun _ _ _ => ctParseProto_head) (tryIf_head (fun _ _ _ => ctParseIp_head) h h1) htb

theorem ctParseProtoinfo_head {attr : ℕ} (h : Head t ct) (heq : ctParseProtoinfo buf ct attr = .ok ct') :
    Head t ct' := by
  obtain ⟨tb, htb⟩ := inAttr_ok heq
  refine tryIf_head (fun ct a ct' hct htcp => ?_) h htb
  obtain ⟨tb', htb'⟩ := inAttr_ok htcp
  cases htb'
  exact setIf_head _ hct

theorem ctParseCounters_head {repl : Bool} {attr : ℕ} (h : Head t ct)
    (heq : ctParseCounters buf repl ct attr = .ok ct') : Head t ct' := by
  obtain ⟨tb, htb⟩ := inAttr_ok heq
  cases htb
  exact setIf_head _ (setIf_head _ (setIf_head _ (setIf_head _ h)))

theorem ctParseTimestamp_head {attr : ℕ} (h : Head t ct) (heq : ctParseTimestamp buf ct attr = .ok ct') :
    Head t ct' := by
  obtain ⟨tb, htb⟩ := inAttr_ok heq
  split at htb
  · cases htb
    exact h
  · cases htb
    exact h

omit [HostOrder] in
theorem ctScalars_head (tb : Index) (h : Head t ct) : Head t (ctScalars buf tb ct) :=
  setIf_head _ (setIf_head _ (setIf_head _ (setIf_head _ (setIf_head _ (setIf_head _ h)))))

/-- **The parser** says of which type the message was. -/
theorem nfnlmsgCtParse_head {nlh : NlMsg} (heq : nfnlmsgCtParse nlh = .ok ct') : Head nlh.nlmsgType ct' := by
  unfold nfnlmsgCtParse at heq
  simp only at heq
  split_ifs at heq
  obtain ⟨ct1, h1, heq⟩ := ok_bind heq
  obtain ⟨ct2, h2, heq⟩ := ok_bind heq
  obtain ⟨ct3, h3, heq⟩ := ok_bind heq
  obtain ⟨ct4, h4, heq⟩ := ok_bind heq
  obtain ⟨ct5, h5, heq⟩ := ok_bind heq
  have k0 : Head nlh.nlmsgType (nfnlCtSetFamily { nfnlCtAlloc with ceMsgtype := nlh.nlmsgType }
      (nlh.buf nlmsgData).toBitVec) := ⟨rfl, rfl⟩
  have k1 := tryIf_head (fun _ _ _ => ctParseTuple_head) k0 h1
  have k2 := tryIf_head (fun _ _ _ => ctParseTuple_head) k1 h2
  have k3 := tryIf_head (fun _ _ _ => ctParseProtoinfo_head) k2 h3
  have k4 := tryIf_head (fun _ _ _ => ctParseCounters_head) (ctScalars_head _ k3) h4
  have k5 := tryIf_head (fun _ _ _ => ctParseCounters_head) k4 h5
  exact tryIf_head (fun _ _ _ => ctParseTimestamp_head) k5 heq

end

/-! ## Runs -/

/-- the attributes of the original tuple -/
def origTuple : BitVec 64 :=
  CT_ATTR_PROTO ||| CT_ATTR_ORIG_SRC ||| CT_ATTR_ORIG_DST ||| CT_ATTR_ORIG_SRC_PORT ||| CT_ATTR_ORIG_DST_PORT |||
    CT_ATTR_ORIG_ICMP_ID ||| CT_ATTR_ORIG_ICMP_TYPE ||| CT_ATTR_ORIG_ICMP_CODE

/-- what a connection is known by: its original tuple, that is which parts it has and their values, and its zone -/
structure CtKey where
  parts : BitVec 64
  family : BitVec 8
  proto : BitVec 8
  src : Option NlAddr
  dst : Option NlAddr
  protoPart : NfnlCtProto
  zone : BitVec 16
deriving DecidableEq

def ctKey (v : CtObj) : CtKey :=
  ⟨v.ceMask &&& origTuple, v.data.ctFamily, v.data.ctProto, v.data.ctOrig.src, v.data.ctOrig.dst, v.data.ctOrig.proto,
    v.data.ctZone⟩

/-- the parser delivered the object from a notification: a new connection or an update, or a deletion -/
def IsParsed [HostOrder] (v : CtObj) : Prop :=
  ∃ n, nfnlmsgCtParse n = .ok v ∧
    ((n.nlmsgType : ℤ) = nfnlmsgCtType IPCTNL_MSG_CT_NEW ∨ (n.nlmsgType : ℤ) = nfnlmsgCtType IPCTNL_MSG_CT_DELETE)

theorem IsParsed.known [HostOrder] {v : CtObj} (h : IsParsed v) : v.ceOps = nfnlCtOps.coObjOps ∧ Known nfnlCtOps v := by
  obtain ⟨n, hn, htype⟩ := h
  obtain ⟨hops, hmsg⟩ := nfnlmsgCtParse_head hn
  refine ⟨hops, ?_⟩
  unfold Known actOf
  rcases htype with htype | htype
  · rw [hmsg, htype]
    exact Or.inl rfl
  · rw [hmsg, htype]
    exact Or.inr rfl

/-- the objects of a conntrack cache after these notifications -/
def cached (cb : ChangeCb) (as : List CtObj) : List CtObj :=
  (contents (notifyAll ctOps (emptyStore nfnlCtOps nfnlCtAlloc) 0 cb as) 0).map Entry.val

/-- the objects of the live connections, in the order of their latest notifications -/
abbrev liveObjs (as : List CtObj) : List CtObj := living ctKey (announces nfnlCtOps) as

/-- the first live object that agrees with the notification in all that `ct_compare` compares and both carry is that of its
connection; and there is none if the connection is not live -/
def Recognised (as : List CtObj) (v : CtObj) : Prop :=
  (liveObjs as).find? (fun w => decide (Agree ctCompared w v)) = (liveObjs as).find? fun w => decide (ctKey w = ctKey v)

instance (as : List CtObj) (v : CtObj) : Decidable (Recognised as v) := inferInstanceAs (Decidable (_ = _))

/-- **Tracking.** For every sequence of notifications that the parser delivered: a cache holds exactly one object for each
live connection, with the values of its latest notification, and none else, after every prefix, exactly when every
notification is recognised. -/
theorem ct_tracked_iff [HostOrder] (cb : ChangeCb) (vs : List CtObj) (hvs : ∀ v ∈ vs, IsParsed v) :
    (∀ as, as <+: vs → Exact ctKey (announces nfnlCtOps) as (cached cb as)) ↔
      ∀ as v, as ++ [v] <+: vs → Recognised as v := by
  have hcached : ∀ as, as <+: vs → cached cb as = follow (announces nfnlCtOps) (nlObjectIdentical ctOps) as :=
    fun as has => contents_follow (fun _ => rfl) nfnlCtAlloc (fun v hv => (hvs v (has.subset hv)).known) cb
  rw [forall₂_congr fun as has => by rw [hcached as has],
    exact_iff ctKey (announces nfnlCtOps) (nlObjectIdentical ctOps) vs]
  refine forall₂_congr fun as v => forall_congr' fun hpre => ?_
  have has : as <+: vs := (List.prefix_append as [v]).trans hpre
  have hv := (hvs v (hpre.subset (by simp))).known.1
  have hfound : (liveObjs as).find? (fun w => nlObjectIdentical ctOps w v) =
      (liveObjs as).find? fun w => decide (Agree ctCompared w v) := by
    refine List.find?_congr fun w hw => ?_
    have hops := (hvs w (has.subset (mem_follow hw).1)).known.1
    rw [Bool.eq_iff_iff, decide_eq_true_eq]
    exact identical_iff hops hv
  rw [Recognised, ← hfound]
  rfl

/-! ## A connection and its update -/

/-- a notification about a connection from 10.0.0.1 to 10.0.0.2 with this timeout, in a buffer of its own -/
def timeoutMsg (timeout : UInt8) : NlMsg :=
  ⟨4096, 52, 256, 0, 0, 0, write (fun _ => 0) 16
    ([2, 0, 0, 0] ++ [24, 0, 1, 128, 20, 0, 1, 128, 8, 0, 1, 0, 10, 0, 0, 1, 8, 0, 2, 0, 10, 0, 0, 2] ++
      [8, 0, 7, 0, 0, 0, 0, timeout]), false⟩

def timeoutObj (timeout : BitVec 32) : CtObj :=
  ⟨0, 256, CT_ATTR_FAMILY ||| CT_ATTR_ORIG_SRC ||| CT_ATTR_ORIG_DST ||| CT_ATTR_TIMEOUT,
    ⟨2, 0, 0, 0, 0, timeout, 0, 0, 0, 0,
      { NfnlCtDir.empty with src := some ⟨2, 32, [10, 0, 0, 1]⟩, dst := some ⟨2, 32, [10, 0, 0, 2]⟩ }, .empty, ⟨0, 0⟩⟩⟩

theorem long_parsed : @IsParsed ⟨false⟩ (timeoutObj 120) := by
  refine ⟨timeoutMsg 120, ?_, Or.inl rfl⟩
  rfl

theorem short_parsed : @IsParsed ⟨false⟩ (timeoutObj 60) := by
  refine ⟨timeoutMsg 60, ?_, Or.inl rfl⟩
  rfl

/-- a connection is announced twice with the same values, and tracked -/
theorem ct_tracked_sample : Exact ctKey (announces nfnlCtOps) [timeoutObj 120, timeoutObj 120]
    (cached .v2 [timeoutObj 120, timeoutObj 120]) := by
  let order : HostOrder := ⟨false⟩
  have h0 : Recognised [] (timeoutObj 120) := rfl
  have h1 : Recognised [timeoutObj 120] (timeoutObj 120) := by rfl
  refine (ct_tracked_iff .v2 [timeoutObj 120, timeoutObj 120] fun v hv => ?_).2 (each_cons h0 (each_cons h1 (each_nil _)))
    _ List.prefix_rfl
  rcases List.mem_pair.1 hv with rfl | rfl
  · exact long_parsed
  · exact long_parsed

/-- **A connection is doubled**: the update of its timeout does not find it. -/
theorem ct_doubled : @IsParsed ⟨false⟩ (timeoutObj 120) ∧ @IsParsed ⟨false⟩ (timeoutObj 60) ∧
    ctKey (timeoutObj 120) = ctKey (timeoutObj 60) ∧
    ¬ ∀ as, as <+: [timeoutObj 120, timeoutObj 60] → Exact ctKey (announces nfnlCtOps) as (cached .none as) := by
  let order : HostOrder := ⟨false⟩
  have hkey : ctKey (timeoutObj 120) = ctKey (timeoutObj 60) := rfl
  refine ⟨long_parsed, short_parsed, hkey, fun hall => ?_⟩
  have hcached : cached .none [timeoutObj 120, timeoutObj 60] = [timeoutObj 120, timeoutObj 60] := by
    refine (contents_follow (fun _ => rfl) nfnlCtAlloc ?_ .none).trans (by rfl)
    intro v hv
    rcases List.mem_pair.1 hv with rfl | rfl
    · exact long_parsed.known
    · exact short_parsed.known
  have hexact := congrArg List.length (hall _ (List.prefix_refl _) (ctKey (timeoutObj 60)))
  rw [hcached, List.filter_cons_of_pos (by exact decide_eq_true hkey), List.filter_cons_of_pos (by exact decide_eq_true rfl)] at hexact
  have hlatest : latest ctKey (announces nfnlCtOps) [timeoutObj 120, timeoutObj 60] (ctKey (timeoutObj 60)) =
      some (timeoutObj 60) := by rfl
  rw [hlatest] at hexact
  simp at hexact

end Libnl.Ct
