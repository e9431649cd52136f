/-
What the parsers of routing messages read (`addr_msg_parser`, `rtnl_neigh_parse`, `rule_msg_parser`,
`__link_msg_parser`), and whether their policies guard it.

Each parser is the list of its accesses, with the places where it gives up: where memory runs out, or where a module that
it calls refuses an attribute (`Run`). What those modules read is not part of it, and copies that are bounded by the
length of the attribute are not accesses either.

- `getters_guarded_iff`: which attributes the tables miss, and that there are no others.
- `empty_flags_read`: an address message with an empty `IFA_FLAGS`.
-/
import Mathlib.Tactic
import Libnl.Message.Accesses
import Libnl.Route.IfAddr
import Libnl.Route.LinkInfo
import Libnl.Route.Neigh
import Libnl.Route.Rule

namespace Libnl.ParserReads

open Bytes Msg Attr AttrWalk Fields Validate EarlyExit Accesses
open IfAddr Neigh Rule LinkInfo

def NDA_DST : ℕ := 1
def NDA_LLADDR : ℕ := 2
def NDA_CACHEINFO : ℕ := 3
def NDA_PROBES : ℕ := 4
def NDA_VLAN : ℕ := 5
def NDA_MASTER : ℕ := 9
def NDA_ENTRY_STATE : ℕ := 12
def NDA_MAX : ℕ := 12

def IFLA_INFO_KIND : ℕ := 1
def IFLA_INFO_DATA : ℕ := 2
def IFLA_INFO_XSTATS : ℕ := 3
def IFLA_INFO_SLAVE_KIND : ℕ := 4
def IFLA_INFO_MAX : ℕ := 5

def RTM_NEWADDR : ℕ := 20

def neighPolicy (type : ℕ) : NlaPolicy :=
  if type = NDA_CACHEINFO then ⟨.unspec, 16, 0⟩
  else if type = NDA_PROBES then ⟨.u32, 0, 0⟩
  else ⟨.unspec, 0, 0⟩

def linkInfoPolicy (type : ℕ) : NlaPolicy :=
  if type = IFLA_INFO_KIND then ⟨.string, 0, 0⟩
  else if type ∈ [IFLA_INFO_DATA, IFLA_INFO_XSTATS] then ⟨.nested, 0, 0⟩
  else ⟨.unspec, 0, 0⟩

/-- what the parser meets in a run -/
structure Run where
  /-- there is no memory for what the attribute of the type holds, or its module refuses it -/
  fails : ℕ → Bool
  /-- the same for attributes in `IFLA_LINKINFO` -/
  infoFails : ℕ → Bool
  /-- `ao_protinfo_policy` of the address family of the link -/
  aoProtinfoPolicy : Option NlaPolicy

/-- `real_link_policy` -/
def realLinkPolicy (run : Run) (type : ℕ) : NlaPolicy :=
  if type = IFLA_PROTINFO then run.aoProtinfoPolicy.getD (rtlnLinkPolicy type) else rtlnLinkPolicy type

/-- the parser gives up over the attribute, if it is there -/
def leaveOver (tb : Index) (fails : ℕ → Bool) (type : ℕ) : Line Access := .leave ((tb type).isSome && fails type)

/-! ## The parsers -/

section

variable [HostOrder]

/-- `addr_msg_parser`; behind these it only copies addresses -/
def addrMsgParserLines (tb : Index) : List (Line Access) :=
  reads tb [(.int 4, IFA_FLAGS)] ++ reads tb [(.str, IFA_ALIAS), (.str, IFA_LABEL), (.int 16, IFA_CACHEINFO)]

/-- `rtnl_neigh_parse` -/
def rtnlNeighParseLines (run : Run) (buf : Mem) (tb : Index) : List (Line Access) :=
  [leaveOver tb run.fails NDA_LLADDR, leaveOver tb run.fails NDA_DST] ++
    (reads tb [(.int 16, NDA_CACHEINFO), (.int 4, NDA_PROBES)] ++
      (reads tb [(.int 2, NDA_VLAN)] ++
        (reads tb [(.int 2, NDA_ENTRY_STATE)] ++
          if (buf 16).toNat = AF_BRIDGE then reads tb [(.int 4, NDA_MASTER)] else [])))

/-- `rule_msg_parser` -/
def ruleMsgParserLines (run : Run) (tb : Index) : List (Line Access) :=
  reads tb [(.int 4, FRA_TABLE), (.str, FRA_IIFNAME), (.str, FRA_OIFNAME), (.int 4, FRA_PRIORITY), (.int 4, FRA_FWMARK),
      (.int 4, FRA_FWMASK), (.int 4, FRA_GOTO)] ++
    ([leaveOver tb run.fails FRA_SRC, leaveOver tb run.fails FRA_DST] ++
      reads tb [(.int 4, FRA_FLOW), (.int 1, FRA_L3MDEV), (.int 1, FRA_PROTOCOL), (.int 1, FRA_IP_PROTO),
        (.int 4, FRA_SPORT_RANGE), (.int 4, FRA_DPORT_RANGE)])

/-- `rtnl_link_info_parse`, up to the namespace of the link -/
def linkInfoFront (run : Run) (buf : Mem) (tb : Index) : List (Line Access) :=
  [.leave (tb IFLA_IFNAME).isNone] ++
    (reads tb [(.str, IFLA_IFNAME), (.int 92, IFLA_STATS)] ++
      -- `rx_nohandler` is read only if it is there
      (ifSome (tb IFLA_STATS) (fun nla => if 96 ≤ nlaLen buf nla then accesses [⟨.int 96, nla⟩] else []) ++
        (reads tb [(.int 4, IFLA_TXQLEN), (.int 4, IFLA_MTU)] ++
          ([leaveOver tb run.fails IFLA_ADDRESS, leaveOver tb run.fails IFLA_BROADCAST] ++ reads tb [(.int 4, IFLA_LINK)]))))

/-- the rest of it -/
def linkInfoBack (run : Run) (tb : Index) : List (Line Access) :=
  reads tb [(.int 4, IFLA_WEIGHT), (.str, IFLA_QDISC), (.int 4, IFLA_MASTER), (.int 1, IFLA_CARRIER),
      (.int 4, IFLA_CARRIER_CHANGES), (.int 1, IFLA_OPERSTATE), (.int 1, IFLA_LINKMODE), (.str, IFLA_IFALIAS)] ++
    ([leaveOver tb run.fails IFLA_IFALIAS] ++ reads tb [(.int 4, IFLA_NET_NS_FD), (.int 4, IFLA_NET_NS_PID)])

/-- `rtnl_link_info_parse` -/
def rtnlLinkInfoParseLines (run : Run) (buf : Mem) (tb : Index) : List (Line Access) :=
  linkInfoFront run buf tb ++ (reads tb [(.int 4, IFLA_LINK_NETNSID)] ++ linkInfoBack run tb)

/-- the virtual functions, of which there is a list if there are any -/
def vfLines (run : Run) (buf : Mem) (tb : Index) : List (Line Access) :=
  reads tb [(.int 4, IFLA_NUM_VF)] ++
    [.leave (((tb IFLA_NUM_VF).any fun nla => decide (nlaGetU32 buf nla ≠ 0)) && (tb IFLA_VFINFO_LIST).isSome &&
      run.fails IFLA_VFINFO_LIST)]

/-- `IFLA_LINKINFO` -/
def linkinfoLines (run : Run) (buf : Mem) (nla : ℕ) : List (Line Access) :=
  let (err, li) := nlaParseNested buf IFLA_INFO_MAX nla (some linkInfoPolicy)
  if err < 0 then [.leave true]
  else reads li [(.str, IFLA_INFO_KIND)] ++
    ([leaveOver li run.infoFails IFLA_INFO_KIND] ++
      (reads li [(.str, IFLA_INFO_SLAVE_KIND)] ++ [leaveOver li run.infoFails IFLA_INFO_SLAVE_KIND]))

/-- what `__link_msg_parser` reads behind that; a kind of link may bring a `IFLA_PROTINFO` of its own -/
def linkBack (run : Run) (tb : Index) : List (Line Access) :=
  [.leave (run.fails IFLA_PROTINFO), leaveOver tb run.fails IFLA_AF_SPEC] ++
    (reads tb [(.int 4, IFLA_PROMISCUITY), (.int 4, IFLA_NUM_TX_QUEUES), (.int 4, IFLA_NUM_RX_QUEUES),
        (.int 4, IFLA_GSO_MAX_SEGS), (.int 4, IFLA_GSO_MAX_SIZE), (.int 4, IFLA_GROUP)] ++
      ([leaveOver tb run.fails IFLA_PHYS_PORT_ID] ++ reads tb [(.str, IFLA_PHYS_PORT_NAME)]))

/-- `__link_msg_parser` -/
def linkMsgParserLines (run : Run) (buf : Mem) (tb : Index) : List (Line Access) :=
  rtnlLinkInfoParseLines run buf tb ++
    (vfLines run buf tb ++ (ifSome (tb IFLA_LINKINFO) (linkinfoLines run buf) ++ linkBack run tb))

inductive Parser where
  | addr
  | neigh
  | rule
  | link
deriving DecidableEq

/-- the size of the header -/
def Parser.hdrlen : Parser → ℤ
  | .addr => 8
  | .neigh => 12
  | .rule => 12
  | .link => 16

def Parser.maxtype : Parser → ℤ
  | .addr => IFA_MAX
  | .neigh => NDA_MAX
  | .rule => FRA_MAX
  | .link => IFLA_MAX

def Parser.policy (run : Run) : Parser → ℕ → NlaPolicy
  | .addr => addrPolicy
  | .neigh => neighPolicy
  | .rule => rulePolicy
  | .link => realLinkPolicy run

def Parser.lines (run : Run) (buf : Mem) (tb : Index) : Parser → List (Line Access)
  | .addr => addrMsgParserLines tb
  | .neigh => rtnlNeighParseLines run buf tb
  | .rule => ruleMsgParserLines run tb
  | .link => linkMsgParserLines run buf tb

/-- the table of the parser, with the code of `nlmsg_parse` -/
def Parser.table (p : Parser) (run : Run) (n : NlMsg) : ℤ × Index :=
  nlmsgParse n p.hdrlen p.maxtype (some (p.policy run))

/-- what the parser accesses of a message -/
def Parser.accesses (p : Parser) (run : Run) (n : NlMsg) : List Access :=
  if (p.table run n).1 < 0 then [] else made (p.lines run n.buf (p.table run n).2)

/-! ## What the tables miss -/

/-- the attribute is long enough, if it is there -/
def LongEnough (buf : Mem) (tb : Index) (type width : ℕ) : Prop := ∀ nla, tb type = some nla → (width : ℤ) ≤ nlaLen buf nla

/-- the parser does not give up over the attribute -/
def Stays (tb : Index) (fails : ℕ → Bool) (type : ℕ) : Prop := (tb type).isSome = true → fails type = false

/-- nor over the virtual functions -/
def StaysOverVfs (run : Run) (buf : Mem) (tb : Index) : Prop :=
  ∀ nla, tb IFLA_NUM_VF = some nla → nlaGetU32 buf nla ≠ 0 → Stays tb run.fails IFLA_VFINFO_LIST

/-- `rtnl_link_info_parse` comes to the namespace of the link -/
structure ComesToNetnsid (run : Run) (tb : Index) : Prop where
  ifname : (tb IFLA_IFNAME).isSome = true
  address : Stays tb run.fails IFLA_ADDRESS
  broadcast : Stays tb run.fails IFLA_BROADCAST

/-- `__link_msg_parser` comes to `IFLA_LINKINFO` -/
structure ComesToLinkinfo (run : Run) (buf : Mem) (tb : Index) : Prop where
  netnsid : ComesToNetnsid run tb
  ifalias : Stays tb run.fails IFLA_IFALIAS
  vfs : StaysOverVfs run buf tb

/-- the kind of the slave ends within its attribute, if the parser comes to it -/
def SlaveKindEnds (run : Run) (buf : Mem) (nla : ℕ) : Prop :=
  let (err, li) := nlaParseNested buf IFLA_INFO_MAX nla (some linkInfoPolicy)
  0 ≤ err → Stays li run.infoFails IFLA_INFO_KIND → ∀ slave, li IFLA_INFO_SLAVE_KIND = some slave →
    Guarded buf ⟨.str, slave⟩

/-- what the table of the parser does not say, and the message has to -/
def Parser.Covered (run : Run) (buf : Mem) (tb : Index) : Parser → Prop
  | .addr => LongEnough buf tb IFA_FLAGS 4
  | .neigh => Stays tb run.fails NDA_LLADDR → Stays tb run.fails NDA_DST →
      LongEnough buf tb NDA_VLAN 2 ∧ LongEnough buf tb NDA_ENTRY_STATE 2 ∧
        ((buf 16).toNat = AF_BRIDGE → LongEnough buf tb NDA_MASTER 4)
  | .rule => True
  | .link => (ComesToNetnsid run tb → LongEnough buf tb IFLA_LINK_NETNSID 4) ∧
      (ComesToLinkinfo run buf tb → ∀ nla, tb IFLA_LINKINFO = some nla → SlaveKindEnds run buf nla)

/-! ## Where the parsers give up -/

variable {run : Run} {buf : Mem} {tb : Index} {fails : ℕ → Bool}

omit [HostOrder] in
theorem left_leave (b : Bool) : left ([.leave b] : List (Line Access)) = b := Bool.or_false b

omit [HostOrder] in
theorem left_leaveOver {type : ℕ} : left [leaveOver tb fails type] = false ↔ Stays tb fails type := by
  rw [leaveOver, left_leave, Bool.and_eq_false_imp]
  rfl

omit [HostOrder] in
theorem left_leaveOver_two {s t : ℕ} :
    left [leaveOver tb fails s, leaveOver tb fails t] = false ↔ Stays tb fails s ∧ Stays tb fails t := by
  have happend := left_append [leaveOver tb fails s] [leaveOver tb fails t]
  rw [List.singleton_append] at happend
  rw [happend, Bool.or_eq_false_iff, left_leaveOver, left_leaveOver]

theorem left_front : left (linkInfoFront run buf tb) = false ↔ ComesToNetnsid run tb := by
  have hstats : left (ifSome (tb IFLA_STATS) fun nla =>
      if 96 ≤ nlaLen buf nla then accesses [Access.mk (.int 96) nla] else []) = false := by
    cases tb IFLA_STATS with
    | none => rfl
    | some nla =>
      show left (if 96 ≤ nlaLen buf nla then accesses [Access.mk (.int 96) nla] else []) = false
      split_ifs
      · rfl
      · rfl
  simp only [linkInfoFront, left_append, left_leave, left_reads, hstats, Bool.or_false, Bool.false_or,
    Bool.or_eq_false_iff, left_leaveOver_two, Option.isNone_eq_false_iff]
  constructor
  · rintro ⟨hname, haddress, hbroadcast⟩
    exact ⟨hname, haddress, hbroadcast⟩
  · intro h
    exact ⟨h.ifname, h.address, h.broadcast⟩

omit [HostOrder] in
theorem left_back : left (linkInfoBack run tb) = false ↔ Stays tb run.fails IFLA_IFALIAS := by
  simp only [linkInfoBack, left_append, left_reads, Bool.or_false, Bool.false_or, left_leaveOver]

theorem left_vfs : left (vfLines run buf tb) = false ↔ StaysOverVfs run buf tb := by
  rw [vfLines, left_append, left_reads, Bool.false_or, left_leave, StaysOverVfs]
  cases tb IFLA_NUM_VF with
  | none => simp
  | some nla => simp [Stays]

theorem left_info : left (rtnlLinkInfoParseLines run buf tb) = false ↔
    ComesToNetnsid run tb ∧ Stays tb run.fails IFLA_IFALIAS := by
  rw [rtnlLinkInfoParseLines, left_append, left_append, left_reads, Bool.false_or, Bool.or_eq_false_iff, left_front,
    left_back]

/-! ## What the tables guard -/

/-- the accesses to one attribute that the table has no entry for -/
theorem all_reads_int {type width : ℕ} :
    All (Guarded buf) (reads tb [(.int width, type)]) ↔ LongEnough buf tb type width := all_reads_one

theorem addr_guarded (hconf : ∀ t nla, tb t = some nla → Conforms buf nla (addrPolicy t)) :
    All (Guarded buf) (addrMsgParserLines tb) ↔ Parser.addr.Covered run buf tb := by
  have hrest : All (Guarded buf) (reads tb [(.str, IFA_ALIAS), (.str, IFA_LABEL), (.int 16, IFA_CACHEINFO)]) :=
    all_reads_guarded (fun _ _ nla hnla => hconf _ nla hnla) (by decide)
  rw [addrMsgParserLines, all_append, all_reads_int]
  exact ⟨fun h => h.1, fun h => ⟨h, fun _ => hrest⟩⟩

theorem neigh_guarded (hconf : ∀ t nla, tb t = some nla → Conforms buf nla (neighPolicy t)) :
    All (Guarded buf) (rtnlNeighParseLines run buf tb) ↔ Parser.neigh.Covered run buf tb := by
  have hfirst : All (Guarded buf) [leaveOver tb run.fails NDA_LLADDR, leaveOver tb run.fails NDA_DST] :=
    (all_leave _ _).append (all_leave _ _)
  have hinfo : All (Guarded buf) (reads tb [(.int 16, NDA_CACHEINFO), (.int 4, NDA_PROBES)]) :=
    all_reads_guarded (fun _ _ nla hnla => hconf _ nla hnla) (by decide)
  have hmaster : All (Guarded buf) (if (buf 16).toNat = AF_BRIDGE then reads tb [(.int 4, NDA_MASTER)] else []) ↔
      ((buf 16).toNat = AF_BRIDGE → LongEnough buf tb NDA_MASTER 4) := by
    by_cases hbridge : (buf 16).toNat = AF_BRIDGE
    · rw [if_pos hbridge, all_reads_int]
      exact ⟨fun h _ => h, fun h => h hbridge⟩
    · rw [if_neg hbridge]
      exact iff_of_true (all_nil _) fun h => absurd h hbridge
  simp only [rtnlNeighParseLines, all_append, left_leaveOver_two, left_reads, all_reads_int, hmaster, true_implies]
  constructor
  · rintro ⟨-, h⟩ hlladdr hdst
    exact (h ⟨hlladdr, hdst⟩).2
  · intro h
    exact ⟨hfirst, fun hstays => ⟨hinfo, h hstays.1 hstays.2⟩⟩

theorem rule_guarded (hconf : ∀ t nla, tb t = some nla → Conforms buf nla (rulePolicy t)) :
    All (Guarded buf) (ruleMsgParserLines run tb) := by
  refine All.append ?_ (All.append ((all_leave _ _).append (all_leave _ _)) ?_)
  · exact all_reads_guarded (fun _ _ nla hnla => hconf _ nla hnla) (by decide)
  · exact all_reads_guarded (fun _ _ nla hnla => hconf _ nla hnla) (by decide)

theorem linkinfo_guarded (nla : ℕ) : All (Guarded buf) (linkinfoLines run buf nla) ↔ SlaveKindEnds run buf nla := by
  have hconf : 0 ≤ (nlaParseNested buf IFLA_INFO_MAX nla (some linkInfoPolicy)).1 → ∀ {t s : ℕ},
      (nlaParseNested buf IFLA_INFO_MAX nla (some linkInfoPolicy)).2 t = some s → Conforms buf s (linkInfoPolicy t) :=
    fun hok _ _ hget => nlaParseNested_conforms hok hget
  unfold linkinfoLines SlaveKindEnds
  generalize nlaParseNested buf IFLA_INFO_MAX nla (some linkInfoPolicy) = parsed at hconf ⊢
  obtain ⟨err, li⟩ := parsed
  by_cases herr : err < 0
  · simp only [herr, if_true]
    exact iff_of_true (all_leave _ _) fun hok => absurd herr (not_lt.2 hok)
  · have hkind : All (Guarded buf) (reads li [(.str, IFLA_INFO_KIND)]) :=
      all_reads_guarded (fun _ _ s hs => hconf (not_lt.1 herr) hs) (by decide)
    have hslave : All (Guarded buf) (reads li [(.str, IFLA_INFO_SLAVE_KIND)]) ↔
        ∀ slave, li IFLA_INFO_SLAVE_KIND = some slave → Guarded buf ⟨.str, slave⟩ := all_reads_one
    simp only [herr, if_false, all_append, left_reads, left_leaveOver, hslave, true_implies]
    constructor
    · rintro ⟨-, -, h⟩ - hstays slave hslave
      exact (h hstays).1 slave hslave
    · intro h
      exact ⟨hkind, all_leave _ _, fun hstays => ⟨h (not_lt.1 herr) hstays, all_leave _ _⟩⟩

section

variable (hconf : ∀ t nla, tb t = some nla → Conforms buf nla (realLinkPolicy run t))

include hconf

/-- the policy of the address family is about one attribute, which is not read here -/
theorem link_reads {ws : List (Want × ℕ)} (hws : (ws.all fun w => guards (rtlnLinkPolicy w.2) w.1) = true)
    (hother : (ws.all fun w => decide (w.2 ≠ IFLA_PROTINFO)) = true) : All (Guarded buf) (reads tb ws) := by
  have hbase : ∀ w ∈ ws, ∀ nla, tb w.2 = some nla → Conforms buf nla (rtlnLinkPolicy w.2) := by
    intro w hw nla hnla
    have hne : w.2 ≠ IFLA_PROTINFO := of_decide_eq_true (List.all_eq_true.1 hother w hw)
    have hpolicy : realLinkPolicy run w.2 = rtlnLinkPolicy w.2 := if_neg hne
    rw [← hpolicy]
    exact hconf w.2 nla hnla
  exact all_reads_guarded hbase hws

theorem front_guarded : All (Guarded buf) (linkInfoFront run buf tb) := by
  refine (all_leave _ _).append (All.append (link_reads hconf (by decide) (by decide)) (All.append ?_ ?_))
  · rw [all_ifSome]
    intro nla _
    by_cases hlen : 96 ≤ nlaLen buf nla
    · rw [if_pos hlen]
      intro a ha
      rw [made_accesses] at ha
      rw [List.mem_singleton.1 ha]
      exact hlen
    · rw [if_neg hlen]
      exact all_nil _
  · refine All.append (link_reads hconf (by decide) (by decide)) (All.append ?_ (link_reads hconf (by decide) (by decide)))
    exact (all_leave _ _).append (all_leave _ _)

theorem back_guarded : All (Guarded buf) (linkInfoBack run tb) :=
  All.append (link_reads hconf (by decide) (by decide))
    ((all_leave _ _).append (link_reads hconf (by decide) (by decide)))

theorem vfs_guarded : All (Guarded buf) (vfLines run buf tb) :=
  All.append (link_reads hconf (by decide) (by decide)) (all_leave _ _)

theorem linkBack_guarded : All (Guarded buf) (linkBack run tb) := by
  refine All.append ((all_leave _ _).append (all_leave _ _)) (All.append (link_reads hconf (by decide) (by decide)) ?_)
  exact (all_leave _ _).append (link_reads hconf (by decide) (by decide))

theorem link_guarded : All (Guarded buf) (linkMsgParserLines run buf tb) ↔ Parser.link.Covered run buf tb := by
  have hinfo : All (Guarded buf) (rtnlLinkInfoParseLines run buf tb) ↔
      (ComesToNetnsid run tb → LongEnough buf tb IFLA_LINK_NETNSID 4) := by
    rw [rtnlLinkInfoParseLines, all_between (front_guarded hconf) (back_guarded hconf), left_front, all_reads_int]
  have hlinkinfo : All (Guarded buf) (ifSome (tb IFLA_LINKINFO) (linkinfoLines run buf)) ↔
      ∀ nla, tb IFLA_LINKINFO = some nla → SlaveKindEnds run buf nla := by
    rw [all_ifSome]
    exact forall₂_congr fun nla _ => linkinfo_guarded nla
  rw [linkMsgParserLines, all_append, hinfo, all_between (vfs_guarded hconf) (linkBack_guarded hconf), hlinkinfo,
    left_info, left_vfs]
  refine and_congr_right fun _ => ?_
  constructor
  · intro h hcomes
    exact h ⟨hcomes.netnsid, hcomes.ifalias⟩ hcomes.vfs
  · intro h hleft hvfs
    exact h ⟨hleft.1, hleft.2, hvfs⟩

end

/-- **The getters are guarded** just if the message makes up for what the tables miss. For every message that passes
`nlmsg_parse` under the table of the parser, and every run: all accesses of the parser are to payloads that are long
enough, if and only if so are those of the attributes without an entry that it comes to (`Covered`): the flags of an
address; the VLAN, the state and, on a bridge, the master of a neighbour; nothing of a rule; the namespace of a link and
the kind it has as a slave. -/
theorem getters_guarded_iff (p : Parser) (run : Run) (n : NlMsg) (hok : 0 ≤ (p.table run n).1) :
    (∀ a ∈ p.accesses run n, Guarded n.buf a) ↔ p.Covered run n.buf (p.table run n).2 := by
  have hconf : ∀ t nla, (p.table run n).2 t = some nla → Conforms n.buf nla (p.policy run t) :=
    fun t nla hnla => nlmsgParse_conforms hok hnla
  rw [Parser.accesses, if_neg (not_lt.2 hok)]
  cases p with
  | addr => exact addr_guarded hconf
  | neigh => exact neigh_guarded hconf
  | rule => exact iff_of_true (rule_guarded hconf) trivial
  | link => exact link_guarded hconf

end

/-- an address message with the flags in an attribute with this payload -/
def flagsMessage (payload : List UInt8) : NlMsg where
  nmSize := 64
  nlmsgLen := 28 + payload.length
  nlmsgType := RTM_NEWADDR
  nlmsgFlags := 0
  nlmsgSeq := 0
  nlmsgPid := 0
  buf := memOf (List.replicate 16 0 ++ [2, 32, 0, 0, 1, 0, 0, 0] ++ [UInt8.ofNat (4 + payload.length), 0, 8, 0] ++ payload)
  bug := false

/-- a run in which nothing fails -/
def calmRun : Run := ⟨fun _ => false, fun _ => false, none⟩

/-- the accesses to an address message with its flags in full -/
theorem getters_guarded_iff_flags : 0 ≤ (@Parser.table ⟨false⟩ .addr calmRun (flagsMessage [128, 0, 0, 0])).1 ∧
    ∀ a ∈ @Parser.accesses ⟨false⟩ .addr calmRun (flagsMessage [128, 0, 0, 0]),
      @Guarded ⟨false⟩ (flagsMessage [128, 0, 0, 0]).buf a := by
  let order : HostOrder := ⟨false⟩
  have hok : 0 ≤ (Parser.addr.table calmRun (flagsMessage [128, 0, 0, 0])).1 := by decide
  refine ⟨hok, (getters_guarded_iff .addr calmRun (flagsMessage [128, 0, 0, 0]) hok).2 ?_⟩
  intro nla hnla
  have hpos : (Parser.addr.table calmRun (flagsMessage [128, 0, 0, 0])).2 IFA_FLAGS = some 24 := by decide
  obtain rfl : 24 = nla := Option.some.inj (hpos.symm.trans hnla)
  decide

/-- **An empty attribute for the flags.** The message passes, and the parser takes an integer of four bytes out of a
payload of none. -/
theorem empty_flags_read : (flagsMessage []).nlmsgType = RTM_NEWADDR ∧
    0 ≤ (@Parser.table ⟨false⟩ .addr calmRun (flagsMessage [])).1 ∧
    ∃ a ∈ @Parser.accesses ⟨false⟩ .addr calmRun (flagsMessage []), a.want = .int 4 ∧
      @nlaLen ⟨false⟩ (flagsMessage []).buf a.nla = 0 ∧ ¬ @Guarded ⟨false⟩ (flagsMessage []).buf a := by
  let order : HostOrder := ⟨false⟩
  have hmade : Parser.addr.accesses calmRun (flagsMessage []) = [⟨.int 4, 24⟩] := by decide
  have hlen : nlaLen (flagsMessage []).buf 24 = 0 := by decide
  refine ⟨rfl, by rfl, ⟨.int 4, 24⟩, ?_, rfl, hlen, fun hguarded => ?_⟩
  · rw [hmade]
    exact List.mem_singleton_self _
  · have hfull : (4 : ℤ) ≤ nlaLen (flagsMessage []).buf 24 := hguarded
    rw [hlen] at hfull
    exact absurd hfull (by decide)

end Libnl.ParserReads
