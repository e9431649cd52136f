/-
Rule messages, there and back.

A rule that came from a message is described by the header and the attributes of that message (`ruleOf`). Building the rule
puts the same attributes, but for the table, which is always put; so what is read of the new message makes the same rule.

- `rule_round_trip`: so it is for every rule the parser delivers, if the message has room.
- `rule_too_large`: a rule with a source address of a page has no room in a message of a page.
-/
import Mathlib.Tactic
import Libnl.Route.Rule

namespace Libnl.Rule

open Bytes Msg Attr AttrWalk AttrTree AttrStream Writer Fields Mask
open Object Addr

/-! ## The header and the attributes -/

section

variable [HostOrder]

theorem fibRuleHdr_length (h : FibRuleHdr) : h.bytes.length = 12 := by
  simp [FibRuleHdr.bytes]

theorem read_hdr {buf : Mem} {h : FibRuleHdr} (hseg : Seg buf 16 h.bytes) : readFibRuleHdr buf = h := by
  obtain ⟨hhead, hflags⟩ := seg_append.1 hseg
  have h0 := hhead 0 (by simp)
  have h1 := hhead 1 (by simp)
  have h2 := hhead 2 (by simp)
  have h3 := hhead 3 (by simp)
  have h4 := hhead 4 (by simp)
  have h7 := hhead 7 (by simp)
  have hget := hflags.getU32
  simp only [List.length_cons, List.length_nil, Nat.reduceAdd] at h0 h1 h2 h3 h4 h7 hget
  rw [readFibRuleHdr, h0, h1, h2, h3, h4, h7, hget, Nat.mod_eq_of_lt h.flags.isLt, BitVec.ofNat_toNat,
    BitVec.setWidth_eq]
  rfl

theorem portRange_length (r : FibRulePortRange) : r.bytes.length = 4 := by
  simp [FibRulePortRange.bytes]

theorem at_range {buf : Mem} {pos t : ℕ} {r : FibRulePortRange} (h : At buf pos ⟨t, r.bytes⟩) :
    nlaPortRange buf pos = r := by
  obtain ⟨hstart, hstop⟩ := seg_append.1 h.data
  rw [u16Bytes_length] at hstop
  rw [nlaPortRange, hstart.getU16, hstop.getU16, Nat.mod_eq_of_lt r.start.isLt, Nat.mod_eq_of_lt r.stop.isLt,
    BitVec.ofNat_toNat, BitVec.ofNat_toNat, BitVec.setWidth_eq, BitVec.setWidth_eq]

end

/-- attributes as a reader finds them: names end within their arrays, and addresses are no longer than an attribute -/
structure RuleAttrs.Valid (a : RuleAttrs) : Prop where
  iifname : ∀ s ∈ a.iifname, IsStr s ∧ s.length ≤ IFNAMSIZ - 1
  oifname : ∀ s ∈ a.oifname, IsStr s ∧ s.length ≤ IFNAMSIZ - 1
  src : ∀ s ∈ a.src, 4 + s.length ≤ 65535
  dst : ∀ s ∈ a.dst, 4 + s.length ≤ 65535

section

variable [HostOrder]

theorem readRuleAttrs_valid (buf : Mem) (tb : Index) : (readRuleAttrs buf tb).Valid where
  iifname s hs := by
    obtain ⟨a, -, rfl⟩ := Option.mem_map.1 hs
    exact ⟨nlaStrlcpy_isStr _ _ _, nlaStrlcpy_length _ _ _⟩
  oifname s hs := by
    obtain ⟨a, -, rfl⟩ := Option.mem_map.1 hs
    exact ⟨nlaStrlcpy_isStr _ _ _, nlaStrlcpy_length _ _ _⟩
  src s hs := by
    obtain ⟨a, -, rfl⟩ := Option.mem_map.1 hs
    exact nlaBytes_length _ _
  dst s hs := by
    obtain ⟨a, -, rfl⟩ := Option.mem_map.1 hs
    exact nlaBytes_length _ _

/-- attributes as the builder puts them -/
def attrFields (a : RuleAttrs) : FieldList :=
  [(FRA_TABLE, a.table.map fun v => u32Bytes v.toNat), (FRA_SRC, a.src), (FRA_DST, a.dst),
    (FRA_IIFNAME, a.iifname.map fun s => s ++ [0]), (FRA_OIFNAME, a.oifname.map fun s => s ++ [0]),
    (FRA_PRIORITY, a.priority.map fun v => u32Bytes v.toNat), (FRA_FWMARK, a.fwmark.map fun v => u32Bytes v.toNat),
    (FRA_FWMASK, a.fwmask.map fun v => u32Bytes v.toNat), (FRA_GOTO, a.goto.map fun v => u32Bytes v.toNat),
    (FRA_FLOW, a.flow.map fun v => u32Bytes v.toNat), (FRA_L3MDEV, a.l3mdev.map fun v => [UInt8.ofBitVec v]),
    (FRA_IP_PROTO, a.ipProto.map fun v => [UInt8.ofBitVec v]),
    (FRA_SPORT_RANGE, a.sportRange.map FibRulePortRange.bytes),
    (FRA_DPORT_RANGE, a.dportRange.map FibRulePortRange.bytes),
    (FRA_PROTOCOL, a.protocol.map fun v => [UInt8.ofBitVec v])]

theorem attrFields_distinct (a : RuleAttrs) : Distinct (attrFields a) := by
  show List.Nodup _
  simp only [attrFields, List.map_cons, List.map_nil]
  decide

theorem attrFields_length (a : RuleAttrs) : (attrFields a).length = 15 := rfl

theorem sends_range {pt : NlaPolicy} (hpt : pt = ⟨.unspec, 4, 4⟩) (o : Option FibRulePortRange) :
    Sends pt (o.map FibRulePortRange.bytes) := by
  subst hpt
  intro q hq
  obtain ⟨r, -, rfl⟩ := Option.mem_map.1 hq
  have hlen := portRange_length r
  exact ⟨by omega, by simp [hlen], Or.inr hlen.le, nofun⟩

theorem attrFields_sendable {a : RuleAttrs} (ha : a.Valid) : Sendable rulePolicy (attrFields a) := by
  have hname : ∀ {o : Option (List UInt8)}, (∀ s ∈ o, IsStr s ∧ s.length ≤ IFNAMSIZ - 1) →
      ∀ s ∈ o, s.length + 1 ≤ IFNAMSIZ := fun ho s hs => by
    have hlen := (ho s hs).2
    simp only [IFNAMSIZ] at hlen ⊢
    omega
  refine Sendable.cons (by decide) (sends_u32 (by decide) _) ?_
  refine Sendable.cons (by decide) (sends_any (by decide) ha.src) ?_
  refine Sendable.cons (by decide) (sends_any (by decide) ha.dst) ?_
  refine Sendable.cons (by decide) (sends_str (n := IFNAMSIZ) (by decide) (by decide) (hname ha.iifname)) ?_
  refine Sendable.cons (by decide) (sends_str (n := IFNAMSIZ) (by decide) (by decide) (hname ha.oifname)) ?_
  refine Sendable.cons (by decide) (sends_u32 (by decide) _) ?_
  refine Sendable.cons (by decide) (sends_u32 (by decide) _) ?_
  refine Sendable.cons (by decide) (sends_u32 (by decide) _) ?_
  refine Sendable.cons (by decide) (sends_u32 (by decide) _) ?_
  refine Sendable.cons (by decide) (sends_u32 (by decide) _) ?_
  refine Sendable.cons (by decide) (sends_u8 (by decide) _) ?_
  refine Sendable.cons (by decide) (sends_u8 (by decide) _) ?_
  refine Sendable.cons (by decide) (sends_range (by decide) _) ?_
  refine Sendable.cons (by decide) (sends_range (by decide) _) ?_
  exact Sendable.cons (by decide) (sends_u8 (by decide) _) (Sendable.nil _)

/-- **What is read** of attributes that were put -/
theorem read_attrs {buf : Mem} {tb : Index} {a : RuleAttrs} (ha : a.Valid)
    (h : Indexes buf FRA_MAX (leavesOf (attrFields a)) tb) : readRuleAttrs buf tb = a := by
  have hget : ∀ i t p, (attrFields a)[i]? = some (t, p) → t % 16384 ≤ FRA_MAX → Shown buf tb (t % 16384) p :=
    fun i t p hi ht => shown_of_indexes h (attrFields_distinct a) (List.mem_of_getElem? hi) ht
  have htable := (hget 0 FRA_TABLE _ rfl (by decide)).u32
  have hsrc := (hget 1 FRA_SRC _ rfl (by decide)).bytes
  have hdst := (hget 2 FRA_DST _ rfl (by decide)).bytes
  have hiif := (hget 3 FRA_IIFNAME _ rfl (by decide)).str ha.iifname
  have hoif := (hget 4 FRA_OIFNAME _ rfl (by decide)).str ha.oifname
  have hprio := (hget 5 FRA_PRIORITY _ rfl (by decide)).u32
  have hmark := (hget 6 FRA_FWMARK _ rfl (by decide)).u32
  have hmask := (hget 7 FRA_FWMASK _ rfl (by decide)).u32
  have hgoto := (hget 8 FRA_GOTO _ rfl (by decide)).u32
  have hflow := (hget 9 FRA_FLOW _ rfl (by decide)).u32
  have hl3mdev := (hget 10 FRA_L3MDEV _ rfl (by decide)).u8
  have hipProto := (hget 11 FRA_IP_PROTO _ rfl (by decide)).u8
  have hsport : (tb FRA_SPORT_RANGE).map (nlaPortRange buf) = a.sportRange.map id :=
    (hget 12 FRA_SPORT_RANGE _ rfl (by decide)).map fun _ _ _ _ hat => at_range hat
  have hdport : (tb FRA_DPORT_RANGE).map (nlaPortRange buf) = a.dportRange.map id :=
    (hget 13 FRA_DPORT_RANGE _ rfl (by decide)).map fun _ _ _ _ hat => at_range hat
  have hprotocol := (hget 14 FRA_PROTOCOL _ rfl (by decide)).u8
  rw [Option.map_id] at hsport hdport
  cases a
  simp only [readRuleAttrs, RuleAttrs.mk.injEq]
  exact ⟨htable, hiif, hoif, hprio, hmark, hmask, hgoto, hsrc, hdst, hflow, hl3mdev, hprotocol, hipProto, hsport,
    hdport⟩

end

/-! ## The object -/

theorem ruleBits_separate (frh : FibRuleHdr) (a : RuleAttrs) : separate ((ruleBits frh a).map Prod.fst) = true := by
  simp only [ruleBits, List.map_cons, List.map_nil]
  rfl

theorem hasAttr_ruleOf (msgtype : ℤ) (frh : FibRuleHdr) (a : RuleAttrs) (i : ℕ) (bit : BitVec 64) {there : Bool}
    (h : (ruleBits frh a)[i]? = some (bit, there)) : hasAttr (ruleOf msgtype frh a) bit = there := by
  have hhas := maskOf_has (ruleBits_separate frh a) (List.mem_of_getElem? h)
  rw [Bool.eq_iff_iff, hasAttr, decide_eq_true_eq]
  exact hhas

/-- an attribute the message has is one the builder puts -/
theorem ifAttr_ruleOf {γ : Type} (msgtype : ℤ) (frh : FibRuleHdr) (a : RuleAttrs) (i : ℕ) (bit : BitVec 64)
    (o : Option γ) (h : (ruleBits frh a)[i]? = some (bit, o.isSome)) (d : γ) (enc : γ → List UInt8) :
    ifAttr (ruleOf msgtype frh a) bit (enc (o.getD d)) = o.map enc := by
  rw [ifAttr, hasAttr_ruleOf msgtype frh a i bit h]
  cases o with
  | none => rfl
  | some x => rfl

section

variable (msgtype : ℤ) (frh : FibRuleHdr) (a : RuleAttrs)

/-- the table of the object, which is what is put -/
def tableOf : BitVec 32 := a.table.getD (frh.table.setWidth 32)

/-- an address is put as it was read -/
theorem ifAttr_addr (i : ℕ) (bit : BitVec 64) (o : Option (List UInt8)) (h : (ruleBits frh a)[i]? = some (bit, o.isSome))
    (prefixlen : BitVec 8) :
    ifAttr (ruleOf msgtype frh a) bit (binaryAddr (o.map (ruleAddr frh.family prefixlen))) = o := by
  rw [ifAttr, hasAttr_ruleOf msgtype frh a i bit h]
  cases o with
  | none => rfl
  | some x => rfl

/-- **What the builder puts** -/
theorem ruleFields_ruleOf [HostOrder] :
    ruleFields (ruleOf msgtype frh a) = attrFields { a with table := some (tableOf frh a) } := by
  let enc32 : BitVec 32 → List UInt8 := fun v => u32Bytes v.toNat
  let enc8 : BitVec 8 → List UInt8 := fun v => [UInt8.ofBitVec v]
  let encStr : List UInt8 → List UInt8 := fun s => s ++ [0]
  have hsrc := ifAttr_addr msgtype frh a 11 RULE_ATTR_SRC a.src rfl frh.srcLen
  have hdst := ifAttr_addr msgtype frh a 12 RULE_ATTR_DST a.dst rfl frh.dstLen
  have hiif := ifAttr_ruleOf msgtype frh a 5 RULE_ATTR_IIFNAME a.iifname rfl [] encStr
  have hoif := ifAttr_ruleOf msgtype frh a 6 RULE_ATTR_OIFNAME a.oifname rfl [] encStr
  have hprio := ifAttr_ruleOf msgtype frh a 7 RULE_ATTR_PRIO a.priority rfl 0 enc32
  have hmark := ifAttr_ruleOf msgtype frh a 8 RULE_ATTR_MARK a.fwmark rfl 0 enc32
  have hmask := ifAttr_ruleOf msgtype frh a 9 RULE_ATTR_MASK a.fwmask rfl 0 enc32
  have hgoto := ifAttr_ruleOf msgtype frh a 10 RULE_ATTR_GOTO a.goto rfl 0 enc32
  have hflow := ifAttr_ruleOf msgtype frh a 13 RULE_ATTR_FLOW a.flow rfl 0 enc32
  have hl3mdev := ifAttr_ruleOf msgtype frh a 14 RULE_ATTR_L3MDEV a.l3mdev rfl 0 enc8
  have hprotocol := ifAttr_ruleOf msgtype frh a 15 RULE_ATTR_PROTOCOL a.protocol rfl 0 enc8
  have hipProto := ifAttr_ruleOf msgtype frh a 16 RULE_ATTR_IP_PROTO a.ipProto rfl 0 enc8
  have hsport := ifAttr_ruleOf msgtype frh a 17 RULE_ATTR_SPORT a.sportRange rfl ⟨0, 0⟩ FibRulePortRange.bytes
  have hdport := ifAttr_ruleOf msgtype frh a 18 RULE_ATTR_DPORT a.dportRange rfl ⟨0, 0⟩ FibRulePortRange.bytes
  simp only [ruleFields, attrFields, List.cons.injEq, Prod.mk.injEq, true_and, and_true]
  exact ⟨rfl, hsrc, hdst, hiif, hoif, hprio, hmark, hmask, hgoto, hflow, hl3mdev, hipProto, hsport, hdport, hprotocol⟩

/-- the message the object makes has the attributes of the one it came from, and the table -/
def again : RuleAttrs := { a with table := some (tableOf frh a) }

theorem prefixlenOf_ruleAddr (o : Option (List UInt8)) (prefixlen : BitVec 8) :
    (if o.isSome then prefixlenOf (o.map (ruleAddr frh.family prefixlen)) else 0) = if o.isSome then prefixlen else 0 := by
  cases o with
  | none => rfl
  | some x =>
    have hcast : BitVec.ofInt 8 (prefixlen.toNat : ℤ) = prefixlen := by
      rw [BitVec.ofInt_natCast, BitVec.ofNat_toNat, BitVec.setWidth_eq]
    exact hcast

theorem ruleHdr_ruleOf : ruleHdr (ruleOf msgtype frh a) = { frh with
    dstLen := if a.dst.isSome then frh.dstLen else 0
    srcLen := if a.src.isSome then frh.srcLen else 0
    table := (tableOf frh a).setWidth 8 } := by
  simp only [ruleHdr, hasAttr_ruleOf msgtype frh a 12 RULE_ATTR_DST rfl,
    hasAttr_ruleOf msgtype frh a 11 RULE_ATTR_SRC rfl]
  rw [← prefixlenOf_ruleAddr frh a.dst frh.dstLen, ← prefixlenOf_ruleAddr frh a.src frh.srcLen]
  rfl

theorem again_valid {a : RuleAttrs} (ha : a.Valid) : (again frh a).Valid := ⟨ha.iifname, ha.oifname, ha.src, ha.dst⟩

/-- the table shows in the header or in the attribute, in either message -/
theorem saysTable_iff (hagree : a.table = some 0 → frh.table = 0) : saysTable frh a = true ↔ tableOf frh a ≠ 0 := by
  have hwide : frh.table.setWidth 32 = 0 ↔ frh.table = 0 := by
    constructor
    · intro h
      have hback := congrArg (BitVec.setWidth 8) h
      rwa [BitVec.setWidth_setWidth_of_le _ (by decide), BitVec.setWidth_eq] at hback
    · intro h
      rw [h]
      rfl
  rw [saysTable, Bool.or_eq_true, decide_eq_true_eq, decide_eq_true_eq, tableOf]
  cases htable : a.table with
  | none =>
    rw [Option.getD_none, Option.getD_none]
    constructor
    · rintro (hfrh | hzero)
      · exact fun h => hfrh (hwide.1 h)
      · exact absurd rfl hzero
    · exact fun h => Or.inl fun hfrh => h (hwide.2 hfrh)
  | some v =>
    rw [Option.getD_some, Option.getD_some]
    constructor
    · rintro (hfrh | hv)
      · intro hv
        exact hfrh (hagree (by rw [htable, hv]))
      · exact hv
    · exact Or.inr

theorem saysTable_again (hagree : a.table = some 0 → frh.table = 0) :
    saysTable (ruleHdr (ruleOf msgtype frh a)) (again frh a) = saysTable frh a := by
  rw [Bool.eq_iff_iff, saysTable_iff frh a hagree, saysTable_iff]
  · rfl
  · intro htable
    have hzero : tableOf frh a = 0 := Option.some.inj htable
    rw [ruleHdr_ruleOf]
    simp only [hzero]
    rfl

/-- **The same object**, but for the type of the message -/
theorem ruleOf_again (hagree : a.table = some 0 → frh.table = 0) (msgtype' : ℤ) :
    ruleOf msgtype' (ruleHdr (ruleOf msgtype frh a)) (again frh a) =
      { ruleOf msgtype frh a with ceMsgtype := msgtype' } := by
  have hbits : ruleBits (ruleHdr (ruleOf msgtype frh a)) (again frh a) = ruleBits frh a := by
    rw [ruleBits, saysTable_again msgtype frh a hagree, ruleHdr_ruleOf]
    rfl
  have haddr : ∀ (o : Option (List UInt8)) (prefixlen : BitVec 8),
      o.map (ruleAddr frh.family (if o.isSome then prefixlen else 0)) = o.map (ruleAddr frh.family prefixlen) := by
    intro o prefixlen
    cases o with
    | none => rfl
    | some x => rfl
  rw [ruleOf, hbits, ruleHdr_ruleOf]
  simp only [again, haddr, Option.getD_some]
  rfl

end

/-! ## There and back -/

section

variable [HostOrder]

/-- a table attribute of zero comes only with a header that has no table either -/
def TableAgrees (n : NlMsg) : Prop :=
  (readRuleAttrs n.buf (nlmsgParse n 12 FRA_MAX (some rulePolicy)).2).table = some 0 → (readFibRuleHdr n.buf).table = 0

/-- what the parser delivers -/
theorem ruleMsgParser_ok {n : NlMsg} {r : RuleVal} (h : ruleMsgParser n = .ok r) :
    r = ruleOf n.nlmsgType (readFibRuleHdr n.buf)
      (readRuleAttrs n.buf (nlmsgParse n 12 FRA_MAX (some rulePolicy)).2) := by
  simp only [ruleMsgParser] at h
  split_ifs at h
  exact (Except.ok.inj h).symm

/-- the bytes of the message for a rule -/
def ruleImage (r : RuleVal) : List UInt8 := (ruleHdr r).bytes ++ encLeaves (leavesOf (ruleFields r))

/-- **A message made of a header and attributes**: it is written, and reads as the object they make. -/
theorem rule_written (msgtype : ℤ) (frh : FibRuleHdr) {a : RuleAttrs} (ha : a.Valid) {size : ℕ} (cmd flags : ℕ)
    (hsize : size ≤ PTRDIFF_MAX) (hroom : 16 + (ruleImage (ruleOf msgtype frh a)).length ≤ size) :
    ∃ m, buildRuleMsg size (ruleOf msgtype frh a) cmd flags = .ok m ∧
      ruleMsgParser m = .ok (ruleOf m.nlmsgType (ruleHdr (ruleOf msgtype frh a)) (again frh a)) := by
  have hvalid := again_valid frh ha
  have hfields := ruleFields_ruleOf msgtype frh a
  have hhdr := fibRuleHdr_length (ruleHdr (ruleOf msgtype frh a))
  rw [ruleImage, hfields] at hroom
  obtain ⟨m0, m, tb, halloc, hput, hparse, hidx, hseg⟩ := fields_written (-NLE_MSGSIZE) FRA_MAX cmd flags
    (by rw [hhdr]) (attrFields_sendable hvalid) (by rw [hhdr, attrFields_length]; decide) hsize hroom
  rw [hhdr, Nat.cast_ofNat] at hparse
  refine ⟨m, ?_, ?_⟩
  · have hfamily := hasAttr_ruleOf msgtype frh a 0 RULE_ATTR_FAMILY rfl
    rw [buildRuleMsg, if_pos hfamily, halloc, hfields]
    simp only [again] at hput
    simp only [hput, lt_irrefl, if_false]
  · simp only [ruleMsgParser, hparse, lt_irrefl, if_false, read_hdr hseg, read_attrs hvalid hidx]

/-- a rule whose message has no room -/
theorem rule_unwritten (msgtype : ℤ) (frh : FibRuleHdr) {a : RuleAttrs} (ha : a.Valid) {size : ℕ} (cmd flags : ℕ)
    (hsize : size ≤ PTRDIFF_MAX) (hle : 28 ≤ size) (hfull : size < 16 + (ruleImage (ruleOf msgtype frh a)).length) :
    buildRuleMsg size (ruleOf msgtype frh a) cmd flags = .error (-NLE_MSGSIZE) := by
  have hfields := ruleFields_ruleOf msgtype frh a
  have hhdr := fibRuleHdr_length (ruleHdr (ruleOf msgtype frh a))
  have hfamily := hasAttr_ruleOf msgtype frh a 0 RULE_ATTR_FAMILY rfl
  rw [ruleImage, hfields] at hfull
  obtain ⟨m0, halloc, hput⟩ := fields_unwritten (-NLE_MSGSIZE) cmd flags (by rw [hhdr])
    (attrFields_sendable (again_valid frh ha)) (by rw [hhdr]; decide) hsize (by rw [hhdr]; exact hle) hfull
  have hneg : (-NLE_MSGSIZE : ℤ) < 0 := by decide
  rw [buildRuleMsg, if_pos hfamily, halloc, hfields]
  simp only [again] at hput
  simp only [hput, hneg, if_true]

/-- **Round trip.** For every rule the parser delivers from a message whose two tables agree: if the message to build has
room, it is built, and the parser delivers from it a rule with the same attributes and the same values. -/
theorem rule_round_trip {n : NlMsg} {r : RuleVal} (hparse : ruleMsgParser n = .ok r) (htable : TableAgrees n)
    {size : ℕ} (cmd flags : ℕ) (hsize : size ≤ PTRDIFF_MAX) (hroom : 16 + (ruleImage r).length ≤ size) :
    ∃ m r', buildRuleMsg size r cmd flags = .ok m ∧ ruleMsgParser m = .ok r' ∧ r'.ceMask = r.ceMask ∧
      r'.data = r.data := by
  have hr := ruleMsgParser_ok hparse
  subst hr
  obtain ⟨m, hbuild, hread⟩ := rule_written n.nlmsgType (readFibRuleHdr n.buf)
    (readRuleAttrs_valid n.buf (nlmsgParse n 12 FRA_MAX (some rulePolicy)).2) cmd flags hsize hroom
  refine ⟨m, _, hbuild, hread, ?_, ?_⟩
  · rw [ruleOf_again _ _ _ htable]
  · rw [ruleOf_again _ _ _ htable]

theorem tableAgrees_of_table {n : NlMsg} {r : RuleVal} (hparse : ruleMsgParser n = .ok r) (hr : r.data.rTable ≠ 0) :
    TableAgrees n := by
  intro htable
  rw [ruleMsgParser_ok hparse] at hr
  exact absurd (congrArg (Option.getD · ((readFibRuleHdr n.buf).table.setWidth 32)) htable) hr

/-- a rule of the main table with a source address of `k` bytes -/
def sourceAttrs (k : ℕ) : RuleAttrs :=
  ⟨none, none, none, none, none, none, none, some (List.replicate k 0), none, none, none, none, none, none, none⟩

def sourceHdr : FibRuleHdr := ⟨2, 0, 32, 0, 254, 1, 0⟩

omit [HostOrder] in
theorem sourceAttrs_valid {k : ℕ} (hk : 4 + k ≤ 65535) : (sourceAttrs k).Valid where
  iifname := nofun
  oifname := nofun
  src s hs := by
    cases hs
    rwa [List.length_replicate]
  dst := nofun

theorem sourceImage_length (msgtype : ℤ) (k : ℕ) :
    (ruleImage (ruleOf msgtype sourceHdr (sourceAttrs k))).length = 20 + align4 (4 + k) := by
  have hleaves : leavesOf (attrFields (again sourceHdr (sourceAttrs k))) =
      [⟨FRA_TABLE, u32Bytes 254⟩, ⟨FRA_SRC, List.replicate k 0⟩] := rfl
  have hfields : ruleFields (ruleOf msgtype sourceHdr (sourceAttrs k)) = attrFields (again sourceHdr (sourceAttrs k)) :=
    ruleFields_ruleOf msgtype sourceHdr (sourceAttrs k)
  have htable : align4 (4 + 4) = 8 := rfl
  rw [ruleImage, List.length_append, fibRuleHdr_length, hfields, hleaves]
  simp only [encLeaves_cons, List.length_append, encLeaf_length, u32Bytes_length, List.length_replicate, htable]
  show 12 + (8 + (align4 (4 + k) + 0)) = _
  omega

omit [HostOrder] in
theorem source_table {msgtype : ℤ} {k : ℕ} :
    (ruleOf msgtype sourceHdr (again sourceHdr (sourceAttrs k))).data.rTable ≠ 0 := by
  show (254 : BitVec 32) ≠ 0
  decide

/-- a message that the parser makes this rule of -/
theorem source_parsed {k : ℕ} (hk : 4 + k ≤ 65535) {size : ℕ} (hsize : size ≤ PTRDIFF_MAX)
    (hroom : 36 + align4 (4 + k) ≤ size) : ∃ n, ruleMsgParser n = .ok (ruleOf n.nlmsgType sourceHdr
      (again sourceHdr (sourceAttrs k))) := by
  have hlen := sourceImage_length RTM_NEWRULE k
  have hhdr : ruleHdr (ruleOf RTM_NEWRULE sourceHdr (sourceAttrs k)) = sourceHdr := by
    rw [ruleHdr_ruleOf]
    rfl
  obtain ⟨n, -, hread⟩ := rule_written RTM_NEWRULE sourceHdr (sourceAttrs_valid hk) 32 0 hsize (by omega)
  rw [hhdr] at hread
  exact ⟨n, hread⟩

/-- with the table in an attribute too, the rule is built into the same message -/
theorem sourceImage_again (msgtype : ℤ) (k : ℕ) :
    ruleImage (ruleOf msgtype sourceHdr (again sourceHdr (sourceAttrs k))) =
      ruleImage (ruleOf msgtype sourceHdr (sourceAttrs k)) := by
  rw [ruleImage, ruleImage, ruleFields_ruleOf, ruleFields_ruleOf]
  rfl

end

/-- the round trip of a rule with a source address, in a message of a page -/
theorem rule_round_trip_sample : ∃ n r m r', @ruleMsgParser ⟨false⟩ n = .ok r ∧
    @buildRuleMsg ⟨false⟩ 4096 r 32 0 = .ok m ∧ @ruleMsgParser ⟨false⟩ m = .ok r' ∧ r'.ceMask = r.ceMask ∧
      r'.data = r.data := by
  let order : HostOrder := ⟨false⟩
  obtain ⟨n, hn⟩ := source_parsed (k := 4) (by decide) (by decide : 4096 ≤ PTRDIFF_MAX) (by decide)
  have hlen : (ruleImage (ruleOf n.nlmsgType sourceHdr (again sourceHdr (sourceAttrs 4)))).length = 28 := by
    rw [sourceImage_again, sourceImage_length]
    rfl
  obtain ⟨m, r', hbuild, hread, hmask, hdata⟩ := rule_round_trip hn (tableAgrees_of_table hn source_table)
    32 0 (by decide : 4096 ≤ PTRDIFF_MAX) (by rw [hlen]; decide)
  exact ⟨n, _, m, r', hn, hbuild, hread, hmask, hdata⟩

/-- **A rule too large.** The parser delivers a rule with a source address of a page, which has no room in a message of a
page, the default. -/
theorem rule_too_large : ∃ n r, @ruleMsgParser ⟨false⟩ n = .ok r ∧ @TableAgrees ⟨false⟩ n ∧
    @buildRuleMsg ⟨false⟩ 4096 r 32 0 = .error (-NLE_MSGSIZE) := by
  let order : HostOrder := ⟨false⟩
  obtain ⟨n, hn⟩ := source_parsed (k := 4096) (by decide) (by decide : 8192 ≤ PTRDIFF_MAX)
    (by decide)
  have hlen : (ruleImage (ruleOf n.nlmsgType sourceHdr (again sourceHdr (sourceAttrs 4096)))).length = 4120 := by
    rw [sourceImage_again, sourceImage_length]
    rfl
  have hvalid : (again sourceHdr (sourceAttrs 4096)).Valid := again_valid sourceHdr
    (sourceAttrs_valid (by decide))
  exact ⟨n, _, hn, tableAgrees_of_table hn source_table,
    rule_unwritten n.nlmsgType sourceHdr hvalid 32 0 (by decide) (by decide) (by rw [hlen]; decide)⟩

end Libnl.Rule
