/-
Lists of actions (`lib/route/act.c`).

An action has a kind, and data that the module for that kind knows how to write and to read. Actions stand in a list; a list
goes out as a nest with one nest for each action, numbered from one, and is read back by these numbers.

Modules are registered by kind (`ActOps`). What the library relies on is part of them: the parser of a module accepts what
its own `to_msg_fill` wrote, which is a number of attributes, not too long, or an error.

- `rtnlActAppend`, `rtnlActFill`, `rtnlActParse`: the functions of the source.
- `fill_one_puts`, `fill_acts_puts`: what an action and a list leave in a message.
- `parse_act_reads`: reading one action.
-/
import Mathlib.Tactic
import Libnl.Message.Writer
import Libnl.Message.Fields

namespace Libnl.Actions

open Bytes Msg Attr AttrWalk AttrTree AttrStream Writer Fields

def TCKINDSIZ : ℕ := 32
def TCA_ACT_KIND : ℕ := 1
def TCA_ACT_OPTIONS : ℕ := 2
def TCA_ACT_MAX : ℕ := 7
def TCA_ACT_MAX_PRIO : ℕ := 32

/-! ## Appending -/

/-- `rtnl_act_append`: the new list, or the error -/
def rtnlActAppend {A : Type*} (head new : List A) : Except ℤ (List A) :=
  if head = [] then .ok new
  else if TCA_ACT_MAX_PRIO < head.length then .error (-NLE_RANGE)
  else .ok (head ++ new)

/-- lists put together with `rtnl_act_append`; what is appended may be a list itself -/
inductive Built {A : Type*} : List A → Prop where
  | nil : Built []
  | single (act : A) : Built [act]
  | append {head new acts : List A} : Built head → Built new → rtnlActAppend head new = .ok acts → Built acts

variable [HostOrder]

/-! ## Modules -/

/-- what a module writes: some attributes, none of them longer than its length says, and not too many -/
structure Options (ls : List Leaf) : Prop where
  wf : ∀ l ∈ ls, l.WF
  some : ls ≠ []
  short : (encLeaves ls).length ≤ 1200

/-- `struct rtnl_tc_ops` of an action. `to_msg_fill` gets the index of the action, if it is set, and the data of the module;
`to_msg_parser` the options of the action, if there are any, and data that was just allocated. -/
structure ActOps where
  toKind : List UInt8
  Data : Type
  fresh : Data
  toMsgFill : Option (BitVec 32) → Data → NlMsg → NlMsg × ℤ
  toMsgParser : Option (List UInt8) → Data → Except ℤ (Data × Option (BitVec 32))
  leaves : Option (BitVec 32) → Data → Option (List Leaf)
  options : ∀ index d ls, leaves index d = some ls → Options ls
  writes : ∀ index d ls, leaves index d = some ls → Puts (toMsgFill index d) ls 0
  refuses : ∀ index d, leaves index d = none → Refuses (toMsgFill index d)
  reads : ∀ index d ls, leaves index d = some ls → ∃ r, toMsgParser (some (encLeaves ls)) fresh = .ok r

/-- `rtnl_tc_lookup_ops` -/
def rtnlTcLookupOps (modules : List ActOps) (kind : List UInt8) : Option ActOps :=
  modules.find? fun ops => decide (ops.toKind = kind)

/-- `struct rtnl_act`: of the data common to all objects of traffic control, those that go into a message. `opts` is the
blob of options that a parser left. -/
structure Act (modules : List ActOps) where
  kind : Option (List UInt8)
  isKind : ∀ k ∈ kind, IsStr k ∧ k.length < TCKINDSIZ
  index : Option (BitVec 32)
  opts : Option (List UInt8)
  data : Option ((ops : ActOps) × ops.Data)
  known : data.map Sigma.fst = rtnlTcLookupOps modules (kind.getD [])

variable {modules : List ActOps}

/-- data of the module, as it is allocated -/
def freshData (ops : Option ActOps) : Option ((ops : ActOps) × ops.Data) := ops.map fun ops => ⟨ops, ops.fresh⟩

theorem freshData_ops (ops : Option ActOps) : (freshData ops).map Sigma.fst = ops := by
  cases ops with
  | none => rfl
  | some ops => rfl

variable (modules) in
/-- `rtnl_act_alloc` -/
def rtnlActAlloc : Act modules where
  kind := none
  isKind _ h := absurd h (Option.not_mem_none _)
  index := none
  opts := none
  data := freshData (rtnlTcLookupOps modules [])
  known := freshData_ops _

/-! ## Writing -/

def kindLeaves (act : Act modules) : List Leaf := act.kind.toList.map fun k => ⟨TCA_ACT_KIND, k ++ [0]⟩

/-- the part of `rtnl_act_fill_one` that the module does; no action has a `to_msg_fill_raw` -/
def fillOptions (act : Act modules) (msg : NlMsg) : NlMsg × ℤ :=
  match act.data with
  | none => (msg, 0)
  | some ⟨ops, d⟩ => passNest (-NLE_NOMEM) TCA_ACT_OPTIONS (ops.toMsgFill act.index d) msg

/-- `rtnl_act_fill_one` -/
def rtnlActFillOne (act : Act modules) (order : ℤ) : NlMsg → NlMsg × ℤ :=
  passNest (-NLE_NOMEM) order fun msg => thenPass (putAll (-NLE_NOMEM) (kindLeaves act) msg) (fillOptions act)

/-- the loop of `rtnl_act_fill`; an action returns zero or an error -/
def fillActs : List (Act modules) → ℤ → NlMsg → NlMsg × ℤ
  | [], _, msg => (msg, 0)
  | act :: acts, order, msg => thenPass (rtnlActFillOne act (order + 1) msg) (fillActs acts (order + 1))

/-- `rtnl_act_fill` -/
def rtnlActFill (attrtype : ℤ) (acts : List (Act modules)) : NlMsg → NlMsg × ℤ :=
  passNest (-NLE_MSGSIZE) attrtype (fillActs acts 0)

/-! ## Reading -/

/-- the module reads the options -/
def parseData (ops : Option ActOps) (opts : Option (List UInt8)) :
    Except ℤ { r : Option ((ops : ActOps) × ops.Data) × Option (BitVec 32) // r.1.map Sigma.fst = ops } :=
  match ops with
  | none => .ok ⟨(none, none), rfl⟩
  | some ops =>
    match ops.toMsgParser opts ops.fresh with
    | .error err => .error err
    | .ok (d, index) => .ok ⟨(some ⟨ops, d⟩, index), rfl⟩

/-- an action of this kind, with these options -/
def parsedAct (kind : List UInt8) (hkind : IsStr kind ∧ kind.length < TCKINDSIZ) (opts : Option (List UInt8)) :
    Except ℤ (Act modules) :=
  match parseData (rtnlTcLookupOps modules kind) opts with
  | .error err => .error err
  | .ok r => .ok {
      kind := some kind
      isKind := fun _ hk => Option.some.inj hk ▸ hkind
      index := r.1.2
      opts := opts
      data := r.1.1
      known := r.2 }

theorem kind_fits (buf : Mem) (nla : ℕ) :
    IsStr (nlaStrlcpy buf nla TCKINDSIZ) ∧ (nlaStrlcpy buf nla TCKINDSIZ).length < TCKINDSIZ :=
  ⟨nlaStrlcpy_isStr buf nla _, Nat.lt_of_le_pred (by decide) (nlaStrlcpy_length buf nla TCKINDSIZ)⟩

/-- an action that is there is read in `rtnl_act_parse` -/
def parseAct (buf : Mem) (head : List (Act modules)) (nla : ℕ) : Except ℤ (List (Act modules)) :=
  let (err, tb2) := nlaParseNested buf TCA_ACT_MAX nla none
  if err < 0 then .error err
  else
    match tb2 TCA_ACT_KIND with
    | none => .error (-NLE_MISSING_ATTR)
    | some kind =>
      match (parsedAct _ (kind_fits buf kind) ((tb2 TCA_ACT_OPTIONS).map (nlaBytes buf)) : Except ℤ (Act modules)) with
      | .error err => .error err
      | .ok act => rtnlActAppend head [act]

/-- the loop body, for the number `i` -/
def parseIndex (buf : Mem) (nla : Index) (head : List (Act modules)) (i : ℕ) : Except ℤ (List (Act modules)) :=
  match nla i with
  | none => .ok head
  | some a => parseAct buf head a

/-- `rtnl_act_parse`: the list; with an error it is freed -/
def rtnlActParse (buf : Mem) (head : List (Act modules)) (tb : ℕ) : Except ℤ (List (Act modules)) :=
  let len := alignInt (nlaLen buf tb)
  let (err, nla) := (nlaParse (len.toNat + 1) buf TCA_ACT_MAX_PRIO (nlaData tb) len none).getD (0, fun _ => none)
  if err < 0 then .error err
  else (List.range TCA_ACT_MAX_PRIO).foldlM (parseIndex buf nla) head

/-! ## What an action leaves in a message -/

/-- the attributes of the options; none if the module refuses -/
def optionLeaves (act : Act modules) : Option (List Leaf) :=
  match act.data with
  | none => some []
  | some ⟨ops, d⟩ => (ops.leaves act.index d).map (typedNest (nestType TCA_ACT_OPTIONS))

/-- the same as bytes -/
def optionBytes (act : Act modules) : Option (List UInt8) :=
  match act.data with
  | none => none
  | some ⟨ops, d⟩ => (ops.leaves act.index d).map encLeaves

/-- the attributes in the nest of an action -/
def content (act : Act modules) : Option (List Leaf) := (optionLeaves act).map (kindLeaves act ++ ·)

/-- the nests of actions, numbered from behind `order` -/
def orderedNests : List (List Leaf) → ℤ → List Leaf
  | [], _ => []
  | ls :: rest, order => typedNest (nestType (order + 1)) ls ++ orderedNests rest (order + 1)

/-- attributes that a nest can hold, with their length -/
structure Fits (ls : List Leaf) (n : ℕ) : Prop where
  wf : ∀ l ∈ ls, l.WF
  short : (encLeaves ls).length ≤ n

theorem Fits.append {as bs : List Leaf} {m n : ℕ} (ha : Fits as m) (hb : Fits bs n) : Fits (as ++ bs) (m + n) := by
  refine ⟨fun l hl => ?_, ?_⟩
  · rcases List.mem_append.1 hl with hl | hl
    · exact ha.wf l hl
    · exact hb.wf l hl
  · rw [encLeaves_append, List.length_append]
    exact Nat.add_le_add ha.short hb.short

/-- a nest around them -/
theorem Fits.nest {ls : List Leaf} {n : ℕ} (h : Fits ls n) (hn : 4 + n ≤ 65535) (t : ℤ) :
    Fits (typedNest (nestType t) ls) (n + 7) := by
  have hshort := h.short
  have htype : nestType t < 65536 := by
    obtain ⟨t', ht, heq⟩ := nested_or_any t
    rw [nestType, heq]
    omega
  unfold typedNest
  split_ifs with hnil
  · exact ⟨fun l hl => absurd hl List.not_mem_nil, Nat.zero_le _⟩
  · refine ⟨fun l hl => ?_, ?_⟩
    · rw [List.mem_singleton.1 hl]
      exact ⟨htype, by dsimp only; omega⟩
    · have hlt := align4_lt (4 + (encLeaves ls).length)
      rw [encLeaves_cons, encLeaves_nil, List.append_nil, encLeaf_length]
      dsimp only
      omega

theorem kindLeaves_fits (act : Act modules) : Fits (kindLeaves act) 39 := by
  unfold kindLeaves
  cases hkind : act.kind with
  | none => exact ⟨fun l hl => absurd hl List.not_mem_nil, Nat.zero_le _⟩
  | some k =>
    have hlen : k.length < 32 := (act.isKind k hkind).2
    refine ⟨fun l hl => ?_, ?_⟩
    · rw [Option.toList_some, List.map_singleton, List.mem_singleton] at hl
      rw [hl]
      exact ⟨(by decide : 1 < 65536), by simp only [List.length_append, List.length_singleton]; omega⟩
    · have hlt := align4_lt (4 + (k ++ [(0 : UInt8)]).length)
      rw [List.length_append, List.length_singleton] at hlt
      rw [Option.toList_some, List.map_singleton, encLeaves_cons, encLeaves_nil, List.append_nil, encLeaf_length,
        List.length_append, List.length_singleton]
      omega

theorem optionLeaves_fits {act : Act modules} {ls : List Leaf} (h : optionLeaves act = some ls) : Fits ls 1207 := by
  unfold optionLeaves at h
  cases hdata : act.data with
  | none =>
    rw [hdata] at h
    cases h
    exact ⟨fun l hl => absurd hl List.not_mem_nil, Nat.zero_le _⟩
  | some r =>
    rw [hdata] at h
    obtain ⟨opts, hopts, rfl⟩ := Option.map_eq_some_iff.1 h
    have hopt := r.1.options _ _ _ hopts
    exact Fits.nest ⟨hopt.wf, hopt.short⟩ (by decide) _

theorem content_fits {act : Act modules} {ls : List Leaf} (h : content act = some ls) : Fits ls 1246 := by
  obtain ⟨opts, hopts, rfl⟩ := Option.map_eq_some_iff.1 h
  exact (kindLeaves_fits act).append (optionLeaves_fits hopts)

theorem fillOptions_puts {act : Act modules} {ls : List Leaf} (h : optionLeaves act = some ls) : Puts (fillOptions act) ls 4 := by
  unfold optionLeaves at h
  unfold fillOptions
  cases hdata : act.data with
  | none =>
    rw [hdata] at h
    cases h
    exact puts_nothing 4
  | some r =>
    rw [hdata] at h
    obtain ⟨opts, hopts, rfl⟩ := Option.map_eq_some_iff.1 h
    have hopt := r.1.options _ _ _ hopts
    have hshort := hopt.short
    exact Puts.passNest _ _ (r.1.writes _ _ _ hopts) (by omega)

theorem fillOptions_refuses {act : Act modules} (h : optionLeaves act = none) : Refuses (fillOptions act) := by
  unfold optionLeaves at h
  unfold fillOptions
  cases hdata : act.data with
  | none =>
    rw [hdata] at h
    cases h
  | some r =>
    rw [hdata] at h
    exact Refuses.passNest (by decide) _ (r.1.refuses _ _ (Option.map_eq_none_iff.1 h))

/-- **One action** -/
theorem fill_one_puts {act : Act modules} {ls : List Leaf} (h : content act = some ls) (order : ℤ) :
    Puts (rtnlActFillOne act order) (typedNest (nestType order) ls) 8 := by
  have hfits := content_fits h
  obtain ⟨opts, hopts, rfl⟩ := Option.map_eq_some_iff.1 h
  have hkind := puts_putAll (-NLE_NOMEM) (kindLeaves_fits act).wf 4
  have hshort := hfits.short
  exact Puts.passNest _ _ (hkind.pass (fillOptions_puts hopts)) (by omega)

theorem fill_one_refuses {act : Act modules} (h : content act = none) (order : ℤ) : Refuses (rtnlActFillOne act order) := by
  have hopts := fillOptions_refuses (Option.map_eq_none_iff.1 h)
  exact Refuses.passNest (by decide) order (hopts.after (putAll (-NLE_NOMEM) (kindLeaves act)))

/-- **All actions of a list** -/
theorem fill_acts_puts {acts : List (Act modules)} {cs : List (List Leaf)} (h : acts.map content = cs.map some) (order : ℤ) :
    Puts (fillActs acts order) (orderedNests cs order) 8 := by
  induction acts generalizing cs order with
  | nil =>
    obtain rfl : cs = [] := List.map_eq_nil_iff.1 h.symm
    exact puts_nothing 8
  | cons act acts ih =>
    obtain ⟨c, rest, rfl, hc, hrest⟩ := List.map_eq_cons_iff.1 h.symm
    exact (fill_one_puts hc.symm (order + 1)).pass (ih hrest.symm (order + 1))

theorem fill_acts_refuses {acts : List (Act modules)} {act : Act modules} (hmem : act ∈ acts) (h : content act = none)
    (order : ℤ) : Refuses (fillActs acts order) := by
  induction acts generalizing order with
  | nil => exact absurd hmem List.not_mem_nil
  | cons first acts ih =>
    rcases List.mem_cons.1 hmem with rfl | hmem
    · exact (fill_one_refuses h (order + 1)).before (fillActs acts (order + 1))
    · exact (ih hmem (order + 1)).after (rtnlActFillOne first (order + 1))

/-! ## Reading an action -/

/-- the kind of an action with a kind is its first attribute, and the options, if any, are the second -/
theorem content_lastOf {act : Act modules} {k : List UInt8} (hk : act.kind = some k) {c : List Leaf} (h : content act = some c) :
    lastOf c TCA_ACT_KIND = some ⟨TCA_ACT_KIND, k ++ [0]⟩ ∧ match act.data with
      | none => lastOf c TCA_ACT_OPTIONS = none
      | some ⟨ops, d⟩ => ∃ ls, ops.leaves act.index d = some ls ∧
          lastOf c TCA_ACT_OPTIONS = some ⟨nestType TCA_ACT_OPTIONS, encLeaves ls⟩ := by
  have htype : nestType TCA_ACT_OPTIONS = 32770 := by decide
  obtain ⟨opts, hopts, rfl⟩ := Option.map_eq_some_iff.1 h
  have hkinds : kindLeaves act = [⟨TCA_ACT_KIND, k ++ [0]⟩] := by rw [kindLeaves, hk]; rfl
  rw [hkinds]
  unfold optionLeaves at hopts
  cases hdata : act.data with
  | none =>
    rw [hdata] at hopts
    cases hopts
    simp [lastOf, TCA_ACT_KIND, TCA_ACT_OPTIONS]
  | some r =>
    rw [hdata] at hopts
    obtain ⟨ls, hls, rfl⟩ := Option.map_eq_some_iff.1 hopts
    have hopt := r.1.options _ _ _ hls
    rw [htype, typedNest, if_neg hopt.some]
    refine ⟨by simp [lastOf, TCA_ACT_KIND], ls, hls, by simp [lastOf, TCA_ACT_KIND, TCA_ACT_OPTIONS]⟩

theorem parsedAct_keeps {kind : List UInt8} {hkind : IsStr kind ∧ kind.length < TCKINDSIZ} {opts : Option (List UInt8)}
    {act : Act modules} (h : parsedAct kind hkind opts = .ok act) : act.kind = some kind ∧ act.opts = opts := by
  unfold parsedAct at h
  cases hdata : parseData (rtnlTcLookupOps modules kind) opts with
  | error err =>
    rw [hdata] at h
    cases h
  | ok r =>
    rw [hdata] at h
    cases h
    exact ⟨rfl, rfl⟩

/-- the module accepts what it wrote; without a module nothing is looked at -/
theorem parsedAct_ok {kind : List UInt8} (hkind : IsStr kind ∧ kind.length < TCKINDSIZ) {opts : Option (List UInt8)}
    (h : ∀ ops, rtnlTcLookupOps modules kind = some ops → ∃ r, ops.toMsgParser opts ops.fresh = .ok r) :
    ∃ act : Act modules, parsedAct kind hkind opts = .ok act := by
  have hparse : ∃ r, parseData (rtnlTcLookupOps modules kind) opts = .ok r := by
    cases hops : rtnlTcLookupOps modules kind with
    | none => exact ⟨_, rfl⟩
    | some ops =>
      obtain ⟨⟨d, index⟩, hr⟩ := h ops hops
      have hdata : parseData (some ops) opts = .ok ⟨(some ⟨ops, d⟩, index), rfl⟩ := by
        simp only [parseData, hr]
      exact ⟨_, hdata⟩
  obtain ⟨r, hr⟩ := hparse
  unfold parsedAct
  rw [hr]
  exact ⟨_, rfl⟩

/-- **Reading one action**: the same kind and options, behind what was there. -/
theorem parse_act_reads {act : Act modules} {k : List UInt8} (hk : act.kind = some k) {c : List Leaf}
    (h : content act = some c) {buf : Mem} {pos type : ℕ} (hat : At buf pos ⟨type, encLeaves c⟩) (head : List (Act modules)) :
    ∃ act' : Act modules, act'.kind = some k ∧ act'.opts = optionBytes act ∧
      parseAct buf head pos = rtnlActAppend head [act'] := by
  have hfits := content_fits h
  have hshort := hfits.short
  have hfree := nlaParse_free ((nlaLen buf pos).toNat + 1) buf TCA_ACT_MAX (nlaData pos) (nlaLen buf pos)
  have hasks : ∀ l ∈ c, ∀ pos, At buf pos l → 0 ≤ validateNla buf pos TCA_ACT_MAX (fun _ => ⟨.unspec, 0, 0⟩) :=
    fun l _ pos _ => by simp [validateNla]
  obtain ⟨tb, hparse, hidx⟩ := parseNested_leaves hat hfits.wf hasks (by omega)
  have hnested : nlaParseNested buf TCA_ACT_MAX pos none = (0, tb) := by
    rw [nlaParseNested, hfree]
    exact hparse
  obtain ⟨hlastKind, hlastOpts⟩ := content_lastOf hk h
  have hidxKind := hidx TCA_ACT_KIND (by decide)
  rw [hlastKind] at hidxKind
  obtain ⟨kpos, htbKind, hatKind⟩ := hidxKind
  have hisKind := act.isKind k hk
  have hread : nlaStrlcpy buf kpos TCKINDSIZ = k := at_str hatKind hisKind.1 (Nat.le_pred_of_lt hisKind.2)
  have hidxOpts := hidx TCA_ACT_OPTIONS (by decide)
  have hopts : (tb TCA_ACT_OPTIONS).map (nlaBytes buf) = optionBytes act := by
    unfold optionBytes
    cases hdata : act.data with
    | none =>
      rw [hdata] at hlastOpts
      rw [hlastOpts] at hidxOpts
      rw [hidxOpts]
      rfl
    | some r =>
      rw [hdata] at hlastOpts
      obtain ⟨ls, hls, hlast⟩ := hlastOpts
      rw [hlast] at hidxOpts
      obtain ⟨opos, htbOpts, hatOpts⟩ := hidxOpts
      rw [htbOpts, Option.map_some, at_bytes hatOpts]
      exact (congrArg (Option.map encLeaves) hls).symm
  have hmodule : ∀ ops, rtnlTcLookupOps modules (nlaStrlcpy buf kpos TCKINDSIZ) = some ops →
      ∃ r, ops.toMsgParser ((tb TCA_ACT_OPTIONS).map (nlaBytes buf)) ops.fresh = .ok r := by
    intro ops hops
    have hknown := act.known
    rw [hk, Option.getD_some, ← hread, hops] at hknown
    obtain ⟨⟨ops', d⟩, hdata, rfl⟩ := Option.map_eq_some_iff.1 hknown
    rw [hdata] at hlastOpts
    obtain ⟨ls, hls, -⟩ := hlastOpts
    rw [hopts, optionBytes, hdata]
    dsimp only
    rw [hls]
    exact ops'.reads _ _ _ hls
  obtain ⟨act', hact⟩ := parsedAct_ok (kind_fits buf kpos) hmodule
  obtain ⟨hkind', hopts'⟩ := parsedAct_keeps hact
  refine ⟨act', by rw [hkind', hread], by rw [hopts', hopts], ?_⟩
  unfold parseAct
  simp only [hnested, lt_irrefl, if_false, htbKind, hact]

end Libnl.Actions
