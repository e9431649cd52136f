/-
Dumps of actions (`act_msg_parser` of `lib/route/act.c`).

The parser allocates an action, reads the list behind it, and walks the list for the callback. It walks with `p_act` and passes
`act`: what the callback gets is the action allocated first, once for every element of the list, and that one has no kind.

- `parse_keeps_head`: the action allocated first stays the first of the list.
- `each_action_is_never_delivered`: the calls are never one for each action of the message.
-/
import Mathlib.Tactic
import Libnl.Route.Act

namespace Libnl.Actions

open Bytes Msg Attr AttrWalk Walk Fields

/-- `sizeof(struct tcamsg)` -/
def SIZEOF_TCAMSG : ℤ := 44

def TCA_ACT_TAB : ℕ := 1
def TCAA_MAX : ℤ := 1

section

variable [HostOrder] {modules : List ActOps}

/-! ## The code -/

variable (modules) in
/-- an action with what it has as an object -/
structure ActObject where
  ceMsgtype : ℕ
  tcFamily : UInt8
  act : Act modules

/-- `tb[TCA_ACT_TAB]` of a message that could be parsed -/
def table (n : NlMsg) : Except ℤ (Option ℕ) :=
  let (err, tb) := nlmsgParse n SIZEOF_TCAMSG TCAA_MAX none
  if err < 0 then .error err else .ok (tb TCA_ACT_TAB)

/-- `rtnl_act_msg_parse` for an action that was just allocated: the action, and the list that begins with it. The index of the
link is zero there, and no link has it. -/
def rtnlActMsgParse (n : NlMsg) : Except ℤ (ActObject modules × List (Act modules)) :=
  match table n with
  | .error err => .error err
  | .ok none => .error (-NLE_MISSING_ATTR)
  | .ok (some tab) =>
    match rtnlActParse n.buf [rtnlActAlloc modules] tab with
    | .error err => .error err
    | .ok list => .ok (⟨n.nlmsgType, n.buf nlmsgData, rtnlActAlloc modules⟩, list)

/-- the walk over the list; `pp_cb` is told what it has been called with so far. The calls, and the return code. -/
def callEach (ppCb : List (ActObject modules) → ℤ) (act : ActObject modules) :
    List (Act modules) → List (ActObject modules) → List (ActObject modules) × ℤ
  | [], calls => (calls, 0)
  | _ :: rest, calls =>
    let err := ppCb (calls ++ [act])
    if err ≠ 0 then (calls ++ [act], err) else callEach ppCb act rest (calls ++ [act])

/-- `act_msg_parser` -/
def actMsgParser (ppCb : List (ActObject modules) → ℤ) (n : NlMsg) : List (ActObject modules) × ℤ :=
  match rtnlActMsgParse n with
  | .error err => ([], err)
  | .ok (act, list) => callEach ppCb act list []

/-! ## The actions of a message -/

/-- the attributes that the reader finds in a table, in order -/
def tableAttrs (buf : Mem) (tab : ℕ) : List ℕ :=
  let len := alignInt (nlaLen buf tab)
  (visits (nlaOk buf) (nlaNext buf) (len.toNat + 1) (nlaData tab) len).getD []

/-- the kind that an action has in a message -/
def kindOf (buf : Mem) (nla : ℕ) : Option (List UInt8) :=
  ((nlaParseNested buf TCA_ACT_MAX nla none).2 TCA_ACT_KIND).map fun kind => nlaStrlcpy buf kind TCKINDSIZ

/-- an object that describes the action has its kind -/
def Describes (buf : Mem) (nla : ℕ) (obj : ActObject modules) : Prop :=
  ∃ k, kindOf buf nla = some k ∧ obj.act.kind = some k

/-- one call for each action of the table, in order, and nothing else -/
def DeliversEach (buf : Mem) (tab : ℕ) (calls : List (ActObject modules)) : Prop :=
  List.Forall₂ (Describes buf) (tableAttrs buf tab) calls

/-! ## The list -/

theorem append_keeps_head {first : Act modules} {rest new got : List (Act modules)}
    (h : rtnlActAppend (first :: rest) new = .ok got) : ∃ rest', got = first :: rest' := by
  unfold rtnlActAppend at h
  rw [if_neg (List.cons_ne_nil _ _)] at h
  split_ifs at h with hfull
  cases h
  exact ⟨rest ++ new, rfl⟩

theorem parseAct_keeps_head {buf : Mem} {first : Act modules} {rest got : List (Act modules)} {nla : ℕ}
    (h : parseAct buf (first :: rest) nla = .ok got) : ∃ rest', got = first :: rest' := by
  unfold parseAct at h
  dsimp only at h
  split_ifs at h with herr
  cases hkind : (nlaParseNested buf TCA_ACT_MAX nla none).2 TCA_ACT_KIND with
  | none =>
    rw [hkind] at h
    cases h
  | some kind =>
    rw [hkind] at h
    dsimp only at h
    cases hact : (parsedAct _ (kind_fits buf kind)
        (((nlaParseNested buf TCA_ACT_MAX nla none).2 TCA_ACT_OPTIONS).map (nlaBytes buf)) : Except ℤ (Act modules)) with
    | error err =>
      rw [hact] at h
      cases h
    | ok act =>
      rw [hact] at h
      exact append_keeps_head h

/-- **The first action stays the first**, whatever is read behind it. -/
theorem parse_keeps_head {buf : Mem} {tb : Index} (numbers : List ℕ) {first : Act modules} {rest got : List (Act modules)}
    (h : numbers.foldlM (parseIndex buf tb) (first :: rest) = .ok got) : ∃ rest', got = first :: rest' := by
  induction numbers generalizing rest with
  | nil =>
    rw [List.foldlM_nil] at h
    cases h
    exact ⟨rest, rfl⟩
  | cons i numbers ih =>
    rw [List.foldlM_cons] at h
    cases hstep : parseIndex buf tb (first :: rest) i with
    | error err =>
      rw [hstep] at h
      cases h
    | ok list =>
      rw [hstep] at h
      have hhead : ∃ rest', list = first :: rest' := by
        unfold parseIndex at hstep
        cases hi : tb i with
        | none =>
          rw [hi] at hstep
          cases hstep
          exact ⟨rest, rfl⟩
        | some nla =>
          rw [hi] at hstep
          exact parseAct_keeps_head hstep
      obtain ⟨rest', rfl⟩ := hhead
      exact ih h

theorem act_parse_keeps_head {buf : Mem} {tab : ℕ} {first : Act modules} {got : List (Act modules)}
    (h : rtnlActParse buf [first] tab = .ok got) : ∃ rest, got = first :: rest := by
  unfold rtnlActParse at h
  dsimp only at h
  split_ifs at h with herr
  exact parse_keeps_head _ h

/-- a table without attributes is read without an error -/
theorem empty_table {buf : Mem} {tab : ℕ} (h : tableAttrs buf tab = []) (head : List (Act modules)) :
    rtnlActParse buf head tab = .ok head := by
  have hlt : nlaLenField buf tab < 65536 := getU16_lt buf tab
  have hlen : alignInt (nlaLen buf tab) < 2147483648 := by
    unfold alignInt nlaLen NLA_HDRLEN
    rw [toInt32_of_mem (by omega) (by omega)]
    omega
  obtain ⟨offs, hvisits, -⟩ := (nlaStream buf).walk (nlaData tab) (alignInt (nlaLen buf tab)) hlen
  have hv := hvisits _ (Nat.lt_succ_self _)
  have hnil : offs = [] := by
    unfold tableAttrs at h
    dsimp only at h
    rw [hv] at h
    exact h
  subst hnil
  obtain ⟨err, tb, hparse, hnone, hidx⟩ := (delivers buf _ _ _ _ hv).parse TCA_ACT_MAX_PRIO none
  obtain rfl := hnone rfl
  have hparse' : nlaParse ((alignInt (nlaLen buf tab)).toNat + 1) buf TCA_ACT_MAX_PRIO (nlaData tab) (alignInt (nlaLen buf tab))
      none = some (0, tb) := hparse
  have hloop : ∀ n ≤ TCA_ACT_MAX_PRIO, (List.range n).foldlM (parseIndex buf tb) head = .ok head := by
    intro n
    induction n with
    | zero => exact fun _ => rfl
    | succ n ih =>
      intro hn
      have hempty := hidx rfl n (Nat.le_of_succ_le hn)
      have hstep : parseIndex buf tb head n = .ok head := by
        unfold parseIndex
        rw [hempty]
        rfl
      rw [List.range_succ, List.foldlM_append, ih (Nat.le_of_succ_le hn)]
      show List.foldlM (parseIndex buf tb) head [n] = _
      rw [List.foldlM_cons, hstep]
      rfl
  unfold rtnlActParse
  simp only [hparse', Option.getD_some, lt_irrefl, if_false]
  exact hloop _ le_rfl

/-! ## The calls -/

/-- every call is made with the same action -/
theorem calls_same (ppCb : List (ActObject modules) → ℤ) (act : ActObject modules) (list : List (Act modules))
    {calls : List (ActObject modules)} (h : ∀ obj ∈ calls, obj = act) : ∀ obj ∈ (callEach ppCb act list calls).1, obj = act := by
  induction list generalizing calls with
  | nil => exact h
  | cons first list ih =>
    have hnext : ∀ obj ∈ calls ++ [act], obj = act := by
      intro obj hobj
      rcases List.mem_append.1 hobj with hobj | hobj
      · exact h obj hobj
      · exact List.mem_singleton.1 hobj
    unfold callEach
    dsimp only
    split_ifs with herr
    · exact hnext
    · exact ih hnext

/-- and the first element of a list gives one -/
theorem calls_ne_nil (ppCb : List (ActObject modules) → ℤ) (act : ActObject modules) {list : List (Act modules)}
    {calls : List (ActObject modules)} (h : calls ≠ [] ∨ list ≠ []) : (callEach ppCb act list calls).1 ≠ [] := by
  induction list generalizing calls with
  | nil =>
    rcases h with h | h
    · exact h
    · exact absurd rfl h
  | cons first list ih =>
    have hnext : calls ++ [act] ≠ [] := List.append_ne_nil_of_right_ne_nil _ (List.cons_ne_nil _ _)
    unfold callEach
    dsimp only
    split_ifs with herr
    · exact hnext
    · exact ih (Or.inl hnext)

/-- **Dumps.** Whatever table of actions a message has, and whatever the callback returns, its calls are not one for each
action. -/
theorem each_action_is_never_delivered (ppCb : List (ActObject modules) → ℤ) {n : NlMsg} {tab : ℕ}
    (h : table n = .ok (some tab)) : ¬ DeliversEach n.buf tab (actMsgParser ppCb n).1 := by
  intro hdelivers
  unfold DeliversEach actMsgParser rtnlActMsgParse at hdelivers
  rw [h] at hdelivers
  dsimp only at hdelivers
  cases hparse : rtnlActParse n.buf [rtnlActAlloc modules] tab with
  | error err =>
    -- no call: then the table is empty, and such a table is read
    rw [hparse] at hdelivers
    have hnil : tableAttrs n.buf tab = [] := List.forall₂_nil_right_iff.1 hdelivers
    rw [empty_table hnil] at hparse
    cases hparse
  | ok list =>
    rw [hparse] at hdelivers
    dsimp only at hdelivers
    obtain ⟨rest, rfl⟩ := act_parse_keeps_head hparse
    have hne : (callEach ppCb ⟨n.nlmsgType, n.buf nlmsgData, rtnlActAlloc modules⟩ (rtnlActAlloc modules :: rest) []).1 ≠ [] :=
      calls_ne_nil ppCb _ (Or.inr (List.cons_ne_nil _ rest))
    have hsame := calls_same ppCb ⟨n.nlmsgType, n.buf nlmsgData, rtnlActAlloc modules⟩ (rtnlActAlloc modules :: rest)
      (fun obj hobj => absurd hobj List.not_mem_nil)
    obtain ⟨obj, calls, hcalls⟩ := List.exists_cons_of_ne_nil hne
    rw [hcalls] at hdelivers hsame
    generalize tableAttrs n.buf tab = attrs at hdelivers
    cases hdelivers with
    | cons hfirst hrest =>
      obtain ⟨k, hkind, hobj⟩ := hfirst
      rw [hsame obj List.mem_cons_self] at hobj
      exact Option.some_ne_none k (hobj.symm.trans rfl)

end

/-- a dump with one action, of the kind "gact" -/
def oneActionDump : NlMsg where
  nmSize := 80
  nlmsgLen := 80
  nlmsgType := 48
  nlmsgFlags := 0
  nlmsgSeq := 0
  nlmsgPid := 0
  buf := memOf (List.replicate 60 0 ++ [20, 0, 1, 0, 16, 0, 1, 0, 9, 0, 1, 0, 103, 97, 99, 116, 0, 0, 0, 0])
  bug := false

/-- **One action is two calls**, and neither of them is about it. -/
theorem one_action_is_two_calls : @table ⟨false⟩ oneActionDump = .ok (some 60) ∧
    @tableAttrs ⟨false⟩ oneActionDump.buf 60 = [64] ∧ @kindOf ⟨false⟩ oneActionDump.buf 64 = some [103, 97, 99, 116] ∧
    (@actMsgParser ⟨false⟩ [] (fun _ => 0) oneActionDump).1.map (fun obj => @Act.kind ⟨false⟩ [] (@ActObject.act ⟨false⟩ [] obj)) =
      [none, none] ∧
    ¬ @DeliversEach ⟨false⟩ [] oneActionDump.buf 60 (@actMsgParser ⟨false⟩ [] (fun _ => 0) oneActionDump).1 := by
  let order : HostOrder := ⟨false⟩
  have hcalls : (@actMsgParser order [] (fun _ => 0) oneActionDump).1.map (fun obj => obj.act.kind) = [none, none] := by
    decide
  have hattrs : tableAttrs oneActionDump.buf 60 = [64] := by decide
  refine ⟨by decide, hattrs, by rfl, hcalls, fun hdelivers => ?_⟩
  have hlen := List.Forall₂.length_eq hdelivers
  have hcount := congrArg List.length hcalls
  rw [List.length_map] at hcount
  rw [hattrs, hcount] at hlen
  exact absurd hlen (by decide)

/-- the callback that stops at once is not called for each either -/
theorem one_action_stopped : ¬ @DeliversEach ⟨false⟩ [] oneActionDump.buf 60
    (@actMsgParser ⟨false⟩ [] (fun _ => 1) oneActionDump).1 := by
  let order : HostOrder := ⟨false⟩
  exact each_action_is_never_delivered (fun _ => 1) (by decide)

end Libnl.Actions
