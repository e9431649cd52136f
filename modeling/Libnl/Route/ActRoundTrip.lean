/-
Lists of actions through a message.

Three bounds go by the name of `TCA_ACT_MAX_PRIO`, and count from different numbers: a list may grow as long as it has
32 elements at most, so that it can have 33; the nests are numbered from one; and the reader indexes numbers up to 32, but
takes out those below.

- `lastOf_orderedNests`: the nest under a number.
- `parse_nests`: the reader makes the first 31 actions of a list again.
- `action_list_round_trip_iff`: a list comes back if it has fewer than 32 actions. `list_of_32_is_cut`: with 32 it does not.
-/
import Mathlib.Tactic
import Libnl.Route.Act

namespace Libnl.Actions

open Bytes Msg Attr AttrWalk AttrTree AttrStream Writer Fields

section

variable {A : Type*}

/-- and every length up to that can be reached -/
theorem built_of_length {acts : List A} (h : acts.length ≤ TCA_ACT_MAX_PRIO + 1) : Built acts := by
  induction acts using List.reverseRecOn with
  | nil => exact Built.nil
  | append_singleton acts act ih =>
    rw [List.length_append, List.length_singleton] at h
    refine Built.append (ih (by omega)) (Built.single act) ?_
    unfold rtnlActAppend
    by_cases hnil : acts = []
    · rw [if_pos hnil, hnil, List.nil_append]
    · rw [if_neg hnil, if_neg (by omega)]

end

section

variable [HostOrder] {modules : List ActOps}

/-! ## The nests of a list -/

theorem orderedNests_fits {cs : List (List Leaf)} (hcs : ∀ c ∈ cs, Fits c 1246) (order : ℤ) :
    ∀ l ∈ orderedNests cs order, l.WF := by
  induction cs generalizing order with
  | nil => exact fun l hl => absurd hl List.not_mem_nil
  | cons c cs ih =>
    intro l hl
    rcases List.mem_append.1 hl with hl | hl
    · exact ((hcs c List.mem_cons_self).nest (by decide) (order + 1)).wf l hl
    · exact ih (fun c hc => hcs c (List.mem_cons_of_mem _ hc)) (order + 1) l hl

theorem orderedNests_length {cs : List (List Leaf)} (hcs : ∀ c ∈ cs, c ≠ []) (order : ℤ) :
    (orderedNests cs order).length = cs.length := by
  induction cs generalizing order with
  | nil => rfl
  | cons c cs ih =>
    rw [orderedNests, typedNest, if_neg (hcs c List.mem_cons_self), List.singleton_append, List.length_cons,
      ih (fun c hc => hcs c (List.mem_cons_of_mem _ hc)), List.length_cons]

/-- an attribute takes four bytes at least -/
theorem four_length_le (ls : List Leaf) : 4 * ls.length ≤ (encLeaves ls).length := by
  induction ls with
  | nil => exact le_rfl
  | cons l ls ih =>
    have hge := le_align4 (4 + l.payload.length)
    rw [encLeaves_cons, List.length_append, encLeaf_length, List.length_cons]
    omega

/-- **The nest under a number** -/
theorem lastOf_orderedNests {cs : List (List Leaf)} (hcs : ∀ c ∈ cs, c ≠ []) {o : ℕ} (ho : o + cs.length < 16384) (i : ℕ) :
    lastOf (orderedNests cs o) i =
      if o < i then (cs[i - o - 1]?).map fun c => ⟨32768 + i, encLeaves c⟩ else none := by
  induction cs generalizing o with
  | nil => simp [orderedNests, lastOf]
  | cons c cs ih =>
    rw [List.length_cons] at ho
    have hnest : typedNest (nestType ((o : ℤ) + 1)) c = [⟨32768 + (o + 1), encLeaves c⟩] := by
      have htype : nestType ((o : ℤ) + 1) = 32768 + (o + 1) := by
        have := nestType_of_lt (t := o + 1) (by omega)
        rwa [Nat.cast_add, Nat.cast_one] at this
      rw [typedNest, if_neg (hcs c List.mem_cons_self), htype]
    have hrest := ih (fun c hc => hcs c (List.mem_cons_of_mem _ hc)) (o := o + 1) (by omega)
    rw [Nat.cast_add, Nat.cast_one] at hrest
    have hmod : (32768 + (o + 1)) % 16384 = o + 1 := by omega
    rw [orderedNests, hnest, lastOf_append, hrest]
    rcases Nat.lt_trichotomy i (o + 1) with hlt | rfl | hgt
    · have hne : ¬ o + 1 = i := by omega
      rw [if_neg (by omega), if_neg (by omega)]
      simp [lastOf, hmod, hne]
    · have hzero : o + 1 - o - 1 = 0 := by omega
      rw [if_neg (by omega), if_pos (by omega), hzero]
      simp [lastOf, hmod]
    · have hne : ¬ o + 1 = i := by omega
      have hsucc : i - o - 1 = (i - (o + 1) - 1) + 1 := by omega
      rw [if_pos hgt, if_pos (by omega), hsucc, List.getElem?_cons_succ]
      cases cs[i - (o + 1) - 1]? with
      | none => simp [lastOf, hmod, hne]
      | some c' => rfl

/-! ## Reading a list -/

/-- the content of actions, all of which can be written -/
structure Contents (acts : List (Act modules)) (cs : List (List Leaf)) : Prop where
  each : acts.map content = cs.map some
  kinds : ∀ act ∈ acts, act.kind.isSome = true

theorem Contents.length {acts : List (Act modules)} {cs : List (List Leaf)} (h : Contents acts cs) : cs.length = acts.length := by
  have hlen := congrArg List.length h.each
  rw [List.length_map, List.length_map] at hlen
  exact hlen.symm

theorem Contents.get {acts : List (Act modules)} {cs : List (List Leaf)} (h : Contents acts cs) {i : ℕ} (hi : i < acts.length) :
    ∃ c k, cs[i]? = some c ∧ acts[i].kind = some k ∧ content acts[i] = some c := by
  have hc := congrArg (fun l => l[i]?) h.each
  have hlt : i < cs.length := by rw [h.length]; exact hi
  simp only [List.getElem?_map, List.getElem?_eq_getElem hi, List.getElem?_eq_getElem hlt, Option.map_some,
    Option.some.injEq] at hc
  obtain ⟨k, hk⟩ := Option.isSome_iff_exists.1 (h.kinds acts[i] (List.getElem_mem hi))
  exact ⟨cs[i], k, List.getElem?_eq_getElem hlt, hk, hc⟩

theorem Contents.mem {acts : List (Act modules)} {cs : List (List Leaf)} (h : Contents acts cs) :
    ∀ c ∈ cs, Fits c 1246 ∧ c ≠ [] := by
  intro c hc
  obtain ⟨i, hi, rfl⟩ := List.getElem_of_mem hc
  rw [h.length] at hi
  obtain ⟨c, k, hget, hk, hcontent⟩ := h.get hi
  rw [List.getElem?_eq_getElem (by rw [h.length]; exact hi), Option.some.injEq] at hget
  rw [hget]
  refine ⟨content_fits hcontent, ?_⟩
  obtain ⟨opts, -, rfl⟩ := Option.map_eq_some_iff.1 hcontent
  rw [kindLeaves, hk]
  exact List.cons_ne_nil _ _

/-- what a message says of an action: its kind, and the bytes of its options -/
def said (act : Act modules) : Option (List UInt8) × Option (List UInt8) := (act.kind, optionBytes act)

/-- what an action that was read has of it -/
def heard (act : Act modules) : Option (List UInt8) × Option (List UInt8) := (act.kind, act.opts)

/-- **The loop of the reader**: after the numbers below `n` it has the actions up to `n - 1`. -/
theorem parse_upto {acts : List (Act modules)} {cs : List (List Leaf)} (h : Contents acts cs) {buf : Mem} {tb : Index}
    (hidx : ∀ i ≤ TCA_ACT_MAX_PRIO, if 0 < i ∧ i ≤ acts.length then
      ∃ c pos type, cs[i - 1]? = some c ∧ tb i = some pos ∧ At buf pos ⟨type, encLeaves c⟩ else tb i = none)
    {n : ℕ} (hn : n ≤ TCA_ACT_MAX_PRIO) :
    ∃ got : List (Act modules), (List.range n).foldlM (parseIndex buf tb) [] = .ok got ∧
      got.map heard = (acts.take (n - 1)).map said := by
  induction n with
  | zero => exact ⟨[], rfl, by simp⟩
  | succ i ih =>
    obtain ⟨got, hloop, hkinds⟩ := ih (by omega)
    have hi := hidx i (by omega)
    have hlen : got.length = (acts.take (i - 1)).length := by
      have := congrArg List.length hkinds
      rwa [List.length_map, List.length_map] at this
    have hlt : got.length ≤ TCA_ACT_MAX_PRIO := by
      rw [hlen, List.length_take]
      omega
    rw [List.range_succ, List.foldlM_append, hloop]
    by_cases hthere : 0 < i ∧ i ≤ acts.length
    · rw [if_pos hthere] at hi
      obtain ⟨c, pos, type, hc, htb, hat⟩ := hi
      obtain ⟨c', k, hc', hk, hcontent⟩ := h.get (i := i - 1) (by omega)
      obtain rfl : c' = c := Option.some.inj (hc'.symm.trans hc)
      obtain ⟨act', hk', hopts', hparse⟩ := parse_act_reads hk hcontent hat got
      have happend : rtnlActAppend got [act'] = .ok (got ++ [act']) := by
        unfold rtnlActAppend
        by_cases hnil : got = []
        · rw [if_pos hnil, hnil, List.nil_append]
        · rw [if_neg hnil, if_neg (by omega)]
      refine ⟨got ++ [act'], ?_, ?_⟩
      · have hstep : parseIndex buf tb got i = .ok (got ++ [act']) := by
          unfold parseIndex
          rw [htb]
          exact hparse.trans happend
        show List.foldlM (parseIndex buf tb) got [i] = _
        rw [List.foldlM_cons, hstep]
        rfl
      · have htake : acts.take (i + 1 - 1) = acts.take (i - 1) ++ [acts[i - 1]] := by
          have hsucc : i + 1 - 1 = (i - 1) + 1 := by omega
          rw [hsucc, List.take_add_one, List.getElem?_eq_getElem (by omega)]
          rfl
        have hsaid : heard act' = said acts[i - 1] := by rw [heard, said, hk', hopts', hk]
        rw [htake, List.map_append, List.map_append, hkinds, List.map_singleton, List.map_singleton, hsaid]
    · rw [if_neg hthere] at hi
      refine ⟨got, ?_, ?_⟩
      · have hstep : parseIndex buf tb got i = .ok got := by
          unfold parseIndex
          rw [hi]
        show List.foldlM (parseIndex buf tb) got [i] = _
        rw [List.foldlM_cons, hstep]
        rfl
      · rw [hkinds]
        by_cases hzero : i = 0
        · subst hzero
          rfl
        · rw [List.take_of_length_le (by omega), List.take_of_length_le (by omega)]

/-- **Reading a list** -/
theorem parse_nests {acts : List (Act modules)} {cs : List (List Leaf)} (h : Contents acts cs) {buf : Mem} {pos type : ℕ}
    (hat : At buf pos ⟨type, encLeaves (orderedNests cs 0)⟩) (hlen : 4 + (encLeaves (orderedNests cs 0)).length ≤ 65535) :
    ∃ got : List (Act modules), rtnlActParse buf [] pos = .ok got ∧
      got.map heard = (acts.take ( TCA_ACT_MAX_PRIO - 1)).map said := by
  have hmem := h.mem
  have hnonempty : ∀ c ∈ cs, c ≠ [] := fun c hc => (hmem c hc).2
  have hwf := orderedNests_fits (fun c hc => (hmem c hc).1) 0
  have hcount := four_length_le (orderedNests cs 0)
  rw [orderedNests_length hnonempty] at hcount
  have hcs := h.length
  have hle := length_le_enc (orderedNests cs 0)
  have hattr : nlaLen buf pos = (encLeaves (orderedNests cs 0)).length := hat.len
  have halign : alignInt (nlaLen buf pos) = (encLeaves (orderedNests cs 0)).length := by
    have hmod := encLeaves_mod (orderedNests cs 0)
    rw [hattr, alignInt, toInt32_of_mem (by omega) (by omega)]
    omega
  have hfree : ∀ l ∈ orderedNests cs 0, ∀ pos, At buf pos l →
      0 ≤ validateNla buf pos TCA_ACT_MAX_PRIO (fun _ => ⟨.unspec, 0, 0⟩) := fun l _ pos _ => by simp [validateNla]
  obtain ⟨tb, hparse, hidx⟩ := parse_leaves hwf hfree hat.data (by omega)
    (n := (encLeaves (orderedNests cs 0)).length + 1) (by omega)
  have hnumbers : ∀ i ≤ TCA_ACT_MAX_PRIO, if 0 < i ∧ i ≤ acts.length then
      ∃ c pos type, cs[i - 1]? = some c ∧ tb i = some pos ∧ At buf pos ⟨type, encLeaves c⟩ else tb i = none := by
    intro i hi
    have hlast := lastOf_orderedNests hnonempty (o := 0) (by omega) i
    rw [Nat.cast_zero, Nat.sub_zero] at hlast
    have htb := hidx i hi
    rw [hlast] at htb
    by_cases hthere : 0 < i ∧ i ≤ acts.length
    · rw [if_pos hthere.1, List.getElem?_eq_getElem (by omega), Option.map_some] at htb
      rw [if_pos hthere]
      obtain ⟨p, hp, hatp⟩ := htb
      exact ⟨cs[i - 1], p, 32768 + i, List.getElem?_eq_getElem (by omega), hp, hatp⟩
    · rw [if_neg hthere]
      by_cases hpos : 0 < i
      · rw [if_pos hpos, List.getElem?_eq_none (by omega)] at htb
        exact htb
      · rw [if_neg hpos] at htb
        exact htb
  obtain ⟨got, hloop, hkinds⟩ := parse_upto h hnumbers le_rfl
  refine ⟨got, ?_, hkinds⟩
  unfold rtnlActParse
  simp only [halign, Int.toNat_natCast, nlaParse_free, hparse, Option.getD_some, lt_irrefl, if_false]
  exact hloop

/-! ## The round trip -/

/-- the module for the action, if there is one, can write it -/
def Writable (act : Act modules) : Prop := (content act).isSome = true

/-- the bytes that a list takes in a message, and some to spare while it is written -/
def need (acts : List (Act modules)) : ℕ := (encLeaves (orderedNests (acts.map fun act => (content act).getD []) 0)).length + 16

/-- what is read of the attribute that was put behind a message, if there is one -/
def readBack (old msg : NlMsg) : Except ℤ (List (Act modules)) :=
  if msg.nlmsgLen = old.nlmsgLen then .ok [] else rtnlActParse msg.buf [] old.nlmsgLen

/-- the list can be written where there is room, and comes back with its kinds -/
structure Survives (acts : List (Act modules)) (attrtype : ℤ) : Prop where
  finite : ∃ m, Tidy m ∧ Room m (need acts)
  comes : ∀ m, Tidy m → Room m (need acts) → ∃ m' got, rtnlActFill attrtype acts m = (m', 0) ∧
    readBack m m' = .ok (got : List (Act modules)) ∧ got.map Act.kind = acts.map Act.kind

theorem contents_of_writable {acts : List (Act modules)} (hkind : ∀ act ∈ acts, act.kind.isSome = true)
    (h : ∀ act ∈ acts, Writable act) : Contents acts (acts.map fun act => (content act).getD []) := by
  refine ⟨?_, hkind⟩
  rw [List.map_map]
  refine List.map_congr_left fun act hact => ?_
  obtain ⟨c, hc⟩ := Option.isSome_iff_exists.1 (h act hact)
  rw [Function.comp_apply, hc, Option.getD_some]

/-- **What the list comes back as**: its first 31 actions, or nothing at all if it is too long for an attribute. -/
theorem fill_then_heard {acts : List (Act modules)} (hkind : ∀ act ∈ acts, act.kind.isSome = true)
    (h : ∀ act ∈ acts, Writable act) (attrtype : ℤ) {m : NlMsg} (hm : Tidy m) (hroom : Room m (need acts)) :
    ∃ m' got, rtnlActFill attrtype acts m = (m', 0) ∧ readBack m m' = .ok (got : List (Act modules)) ∧
      got.map heard = if need acts ≤ 65547 then (acts.take ( TCA_ACT_MAX_PRIO - 1)).map said else [] := by
  have hcontents := contents_of_writable hkind h
  have hputs := fill_acts_puts hcontents.each 0
  unfold need at hroom ⊢
  generalize acts.map (fun act => (content act).getD []) = cs at hcontents hputs hroom ⊢
  have hmem := hcontents.mem
  by_cases hshort : (encLeaves (orderedNests cs 0)).length + 16 ≤ 65547
  · have hle := align4_lt (4 + (encLeaves (orderedNests cs 0)).length)
    have hmod := encLeaves_mod (orderedNests cs 0)
    have hal := align4_of_mod (n := 4 + (encLeaves (orderedNests cs 0)).length) (by omega)
    rw [if_pos hshort]
    by_cases hnil : orderedNests cs 0 = []
    · -- an empty nest is dropped
      have hlen := orderedNests_length (fun c hc => (hmem c hc).2) 0
      rw [hnil, List.length_nil, hcontents.length] at hlen
      obtain rfl : acts = [] := List.eq_nil_of_length_eq_zero hlen.symm
      obtain ⟨m', hfill, hw⟩ := hputs.passNest (-NLE_MSGSIZE) attrtype (by omega) m hm
        (by rw [typedNest, if_pos hnil, encLeaves_nil]; exact room_mono hroom (by simp))
      rw [typedNest, if_pos hnil, encLeaves_nil] at hw
      exact ⟨m', [], hfill, if_pos hw.len, rfl⟩
    · obtain ⟨m', hfill, hw⟩ := hputs.passNest (-NLE_MSGSIZE) attrtype (by omega) m hm (by
        rw [typedNest, if_neg hnil, encLeaves_cons, encLeaves_nil, List.append_nil, encLeaf_length]
        exact room_mono hroom (by dsimp only; omega))
      rw [typedNest, if_neg hnil] at hw
      have htype : nestType attrtype < 65536 := by
        obtain ⟨t', ht, heq⟩ := nested_or_any attrtype
        rw [nestType, heq]
        omega
      obtain ⟨hat, -⟩ := at_of_seg (l := ⟨nestType attrtype, encLeaves (orderedNests cs 0)⟩) ⟨htype, by dsimp only; omega⟩ hw.seg
      obtain ⟨got, hparse, hheard⟩ := parse_nests hcontents hat (by omega)
      refine ⟨m', got, hfill, ?_, hheard⟩
      have hlen := hw.len
      rw [encLeaves_cons, encLeaves_nil, List.append_nil, encLeaf_length] at hlen
      dsimp only at hlen
      rw [readBack, if_neg (by omega), hparse]
  · obtain ⟨m', hfill, hw⟩ := hputs.passNest_long (-NLE_MSGSIZE) attrtype (by omega) hm (room_mono hroom (by omega))
    rw [if_neg hshort]
    exact ⟨m', [], hfill, if_pos hw.len, rfl⟩

/-- the kinds of what comes back -/
theorem fill_then_read {acts : List (Act modules)} (hkind : ∀ act ∈ acts, act.kind.isSome = true)
    (h : ∀ act ∈ acts, Writable act) (attrtype : ℤ) {m : NlMsg} (hm : Tidy m) (hroom : Room m (need acts)) :
    ∃ m' got, rtnlActFill attrtype acts m = (m', 0) ∧ readBack m m' = .ok (got : List (Act modules)) ∧
      got.map Act.kind = if need acts ≤ 65547 then (acts.take ( TCA_ACT_MAX_PRIO - 1)).map Act.kind else [] := by
  obtain ⟨m', got, hfill, hread, hheard⟩ := fill_then_heard hkind h attrtype hm hroom
  refine ⟨m', got, hfill, hread, ?_⟩
  have hfirst := congrArg (List.map Prod.fst) hheard
  rw [List.map_map] at hfirst
  refine hfirst.trans ?_
  by_cases hshort : need acts ≤ 65547
  · rw [if_pos hshort, if_pos hshort, List.map_map]
    rfl
  · rw [if_neg hshort, if_neg hshort, List.map_nil]

/-- fewer than 32 actions fit an attribute -/
theorem need_short {acts : List (Act modules)} (h : acts.length < TCA_ACT_MAX_PRIO) : need acts ≤ 65547 := by
  have hsum : ∀ (acts : List (Act modules)) (order : ℤ),
      (encLeaves (orderedNests (acts.map fun act => (content act).getD []) order)).length ≤ 1253 * acts.length := by
    intro acts
    induction acts with
    | nil => exact fun _ => le_rfl
    | cons act acts ih =>
      intro order
      have hfits : Fits ((content act).getD []) 1246 := by
        cases hcontent : content act with
        | none => exact ⟨fun l hl => absurd hl List.not_mem_nil, Nat.zero_le _⟩
        | some c => exact content_fits hcontent
      have hnest := (hfits.nest (by decide) (order + 1)).short
      have hrest := ih (order + 1)
      rw [List.map_cons, orderedNests, encLeaves_append, List.length_append, List.length_cons]
      omega
  have hle := hsum acts 0
  unfold TCA_ACT_MAX_PRIO at h
  rw [need]
  omega

/-- a list that comes back can be written, and is short -/
theorem Survives.bounded {acts : List (Act modules)} {attrtype : ℤ} (h : Survives acts attrtype)
    (hkind : ∀ act ∈ acts, act.kind.isSome = true) : acts.length < TCA_ACT_MAX_PRIO ∧ ∀ act ∈ acts, Writable act := by
  obtain ⟨m, hm, hroom⟩ := h.finite
  obtain ⟨m', got, hfill, hread, hkinds⟩ := h.comes m hm hroom
  have hwritable : ∀ act ∈ acts, Writable act := by
    intro act hact
    unfold Writable
    cases hcontent : content act with
    | some c => rfl
    | none =>
      have hneg := Refuses.passNest (by decide : -NLE_MSGSIZE < 0) attrtype (fill_acts_refuses hact hcontent 0) m
      have hzero : (passNest (-NLE_MSGSIZE) attrtype (fillActs acts 0) m).2 = 0 := congrArg Prod.snd hfill
      omega
  refine ⟨?_, hwritable⟩
  obtain ⟨m1, got1, hfill1, hread1, hkinds1⟩ := fill_then_read hkind hwritable attrtype hm hroom
  obtain rfl : m1 = m' := congrArg Prod.fst (hfill1.symm.trans hfill)
  obtain rfl : got1 = got := Except.ok.inj (hread1.symm.trans hread)
  have hlen := congrArg List.length (hkinds.symm.trans hkinds1)
  split_ifs at hlen with hshort
  · rw [List.length_map, List.length_map, List.length_take] at hlen
    unfold TCA_ACT_MAX_PRIO at hlen ⊢
    omega
  · rw [List.length_map, List.length_nil] at hlen
    rw [hlen]
    decide

/-- **Action lists.** Actions that have a kind each come back from a message, all of them and in order, if and only if there
are fewer than 32 of them, and the module of each can write it. -/
theorem action_list_round_trip_iff {acts : List (Act modules)} (hkind : ∀ act ∈ acts, act.kind.isSome = true) (attrtype : ℤ) :
    Survives acts attrtype ↔ acts.length < TCA_ACT_MAX_PRIO ∧ ∀ act ∈ acts, Writable act := by
  constructor
  · intro h
    exact h.bounded hkind
  · rintro ⟨hlen, hwritable⟩
    have hshort := need_short hlen
    refine ⟨⟨⟨65600, 16, 0, 0, 0, 0, fun _ => 0, false⟩, ⟨rfl, by decide, by decide⟩, by dsimp only; omega, by dsimp only; omega⟩, ?_⟩
    intro m hm hroom
    obtain ⟨m', got, hfill, hread, hkinds⟩ := fill_then_read hkind hwritable attrtype hm hroom
    refine ⟨m', got, hfill, hread, ?_⟩
    rw [hkinds, if_pos hshort, List.take_of_length_le (Nat.le_sub_one_of_lt hlen)]

/-- an action of a kind for which there is no module -/
def plainAct : Act [] where
  kind := some [103, 97, 99, 116]
  isKind k hk := by
    obtain rfl := Option.some.inj hk
    exact ⟨isStr_of_all rfl, by decide⟩
  index := none
  opts := none
  data := none
  known := rfl

theorem plainAct_writable : Writable plainAct := rfl

/-- actions of that kind, as many as a list can take -/
theorem plainActs_each (n : ℕ) : ∀ act ∈ List.replicate n plainAct, act.kind.isSome = true ∧ Writable act := by
  intro act hact
  rw [List.eq_of_mem_replicate hact]
  exact ⟨rfl, plainAct_writable⟩

theorem plainActs_cut (n : ℕ) (hn : TCA_ACT_MAX_PRIO ≤ n) (attrtype : ℤ) : ¬ Survives (List.replicate n plainAct) attrtype := by
  intro h
  have hlt := (h.bounded fun act hact => (plainActs_each n act hact).1).1
  rw [List.length_replicate] at hlt
  omega

end

/-- one action comes back -/
theorem action_list_round_trip_one : @Survives ⟨false⟩ [] [@plainAct ⟨false⟩] 1 ↔
    [@plainAct ⟨false⟩].length < TCA_ACT_MAX_PRIO ∧ ∀ act ∈ [@plainAct ⟨false⟩], @Writable ⟨false⟩ [] act := by
  let order : HostOrder := ⟨false⟩
  exact action_list_round_trip_iff (fun act hact => (plainActs_each 1 act hact).1) 1

/-- **A list of 32 is cut**, though it was put together without an error, and every action in it can be written. -/
theorem list_of_32_is_cut : Built (List.replicate 32 (@plainAct ⟨false⟩)) ∧
    (∀ act ∈ List.replicate 32 (@plainAct ⟨false⟩), (@Act.kind ⟨false⟩ [] act).isSome = true ∧ @Writable ⟨false⟩ [] act) ∧
    ¬ @Survives ⟨false⟩ [] (List.replicate 32 (@plainAct ⟨false⟩)) 1 := by
  let order : HostOrder := ⟨false⟩
  exact ⟨built_of_length (by rw [List.length_replicate]; decide), plainActs_each 32, plainActs_cut 32 le_rfl 1⟩

end Libnl.Actions
