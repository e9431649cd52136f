/-
Generating traffic control handles (`rtnl_classid_generate` in `lib/route/classid.c`).

For a qdisc the next major number without a name is taken, from a counter that goes round; for a class the first minor number
without a name below its parent. The handle is appended to the file, and its name added to the tables. Without memory for that
the file is read again, and the handle is returned all the same: the tables may then not know it.

A name for a class does not keep its major number from being generated: only the handle with minor number zero is looked up.

- `nameLookup_filled_iff`: the handles that have names.
- `chooseId_returns`, `chooseId_never`: when the search ends.
- `generated_fresh`: with memory for the names, no run gives a handle that has a name, or the same one twice.
- `used_major_and_repeated`: a major number of a class, and without memory the same handle twice.
- `calls_hang_iff`: the runs with a call that does not return, whatever the calls find.
-/
import Mathlib.Tactic
import Libnl.Core.Supply
import Libnl.Route.Classid

namespace Libnl.ClassidGenerate

open Msg Classid Supply

/-! ## Reading the file again -/

/-- a line that is neither a comment nor empty: the tokens of its handle and its name, as far as they are there -/
structure Line where
  handle : Option (List Char)
  name : Option (List Char)

/-- what a call of `rtnl_tc_read_classid_file` finds: whether there is memory for the path, whether the file is unchanged, the
error of `fopen` if it fails, the lines, and how many of them there is memory for -/
structure ClassidFile where
  pathMemory : Bool
  unchanged : Bool
  openErr : Option ℤ
  lines : List Line
  entryMemory : ℕ

/-- the loop over the lines -/
def readLines : ClassidTables → ℕ → List Line → ClassidTables × ℤ
  | t, _, [] => (t, 0)
  | t, memory, line :: lines =>
    match line.handle with
    | none => (t, -NLE_INVAL)
    | some tok =>
      match rtnlTcStr2handle t tok with
      | .error err => (t, err)
      | .ok classid =>
        match line.name, memory with
        | none, _ => (t, -NLE_INVAL)
        | some _, 0 => (t, -NLE_NOMEM)
        | some name, memory + 1 => readLines (classidMapAdd t ⟨classid, name⟩) memory lines

def rtnlTcReadClassidFile (t : ClassidTables) (file : ClassidFile) : ClassidTables × ℤ :=
  if file.pathMemory = false then (t, -NLE_NOMEM)
  else if file.unchanged then (t, 0)
  else
    match file.openErr with
    | some err => (t, err)
    | none => readLines ClassidTables.empty file.entryMemory file.lines

/-! ## Generating -/

/-- the tables, and the static counter -/
structure Generator where
  tables : ClassidTables
  base : Handle

/-- a call, and what it finds: memory for the path, the error of `fopen` if it fails, and memory for the entry and for its
node of the search tree; and the file, if it has to be read again -/
structure Call where
  name : List Char
  parent : Handle
  pathMemory : Bool
  openErr : Option ℤ
  mapMemory : Bool
  nodeMemory : Bool
  file : ClassidFile

/-- how a run ends: the search does, with its fuel, or an entry is freed that stays in its list -/
inductive Halt where
  | never
  | dangling

/-- the parent that a qdisc has -/
def IsQdisc (parent : Handle) : Prop := parent = TC_H_ROOT ∨ parent = TC_H_INGRESS

instance (parent : Handle) : Decidable (IsQdisc parent) := inferInstanceAs (Decidable (_ ∨ _))

def nextBase (base : Handle) : Handle := if base + 0x10000 = TC_H_MAJ TC_H_ROOT then 0x40000000 else base + 0x10000

/-- there is a name for this handle -/
def named (t : ClassidTables) (h : Handle) : Bool := (nameLookup t h).isSome

/-- the minor numbers end here -/
def lastMinor (h : Handle) : Bool := decide (TC_H_MIN h = TC_H_MIN TC_H_ROOT)

/-- the loops at the beginning of `rtnl_classid_generate`: the counter, and the handle -/
def chooseId (fuel : ℕ) (g : Generator) (parent : Handle) : Except Halt (Handle × Except ℤ Handle) :=
  if IsQdisc parent then
    match search nextBase (fun _ => false) (named g.tables) fuel g.base with
    | some (some base) => .ok (base, .ok base)
    | _ => .error .never
  else
    match search (· + 1) lastMinor (named g.tables) fuel (TC_H_MAJ parent) with
    | some (some classid) => .ok (g.base, .ok classid)
    | some none => .ok (g.base, .error (-NLE_RANGE))
    | none => .error .never

def rtnlClassidGenerate (fuel : ℕ) (g : Generator) (c : Call) : Except Halt (Generator × Except ℤ Handle) :=
  match chooseId fuel g c.parent with
  | .error halt => .error halt
  | .ok (base, .error err) => .ok (⟨g.tables, base⟩, .error err)
  | .ok (base, .ok classid) =>
    if c.pathMemory = false then .ok (⟨g.tables, base⟩, .error (-NLE_NOMEM))
    else
      match c.openErr with
      | some err => .ok (⟨g.tables, base⟩, .error err)
      | none =>
        if c.mapMemory = false then .ok (⟨(rtnlTcReadClassidFile g.tables c.file).1, base⟩, .ok classid)
        else if c.nodeMemory = false then .error .dangling
        else .ok (⟨classidMapAdd g.tables ⟨classid, c.name⟩, base⟩, .ok classid)

/-- the tables with these names, before the first call -/
def start (entries : List ClassidMap) : Generator := ⟨filled entries, 0x40000000⟩

/-- a call as a step of a run: the handle that it returns, if it succeeds -/
def generateStep (fuel : ℕ) (g : Generator) (c : Call) : Option (Generator × Option Handle) :=
  (rtnlClassidGenerate fuel g c).toOption.map fun r => (r.1, r.2.toOption)

/-- the handles that the calls of a run return -/
def generated (fuel : ℕ) (entries : List ClassidMap) (calls : List Call) : List (Call × Handle) :=
  results (generateStep fuel) (start entries) calls

/-! ## Handles with names -/

theorem named_iff (t : ClassidTables) (h : Handle) : named t h = true ↔ ∃ m ∈ t.idRoot, m.classid = h := by
  rw [named, nameLookup, Option.isSome_map, tfind, List.find?_isSome]
  refine exists_congr fun m => and_congr_right fun _ => ?_
  rw [decide_eq_true_eq, compareId_eq_zero_iff]

theorem named_classidMapAdd (t : ClassidTables) (m : ClassidMap) (h : Handle) :
    named (classidMapAdd t m) h = true ↔ named t h = true ∨ m.classid = h := by
  rw [named_iff, named_iff, classidMapAdd, tsearch]
  dsimp only
  split_ifs with hthere
  · have hold : ∃ m' ∈ t.idRoot, m'.classid = m.classid := by
      rw [tfind, List.find?_isSome] at hthere
      obtain ⟨m', hm', hzero⟩ := hthere
      rw [decide_eq_true_eq, compareId_eq_zero_iff] at hzero
      exact ⟨m', hm', hzero⟩
    constructor
    · exact Or.inl
    · rintro (hh | rfl)
      · exact hh
      · exact hold
  · constructor
    · rintro ⟨m', hm', rfl⟩
      rcases List.mem_append.1 hm' with hm' | hm'
      · exact Or.inl ⟨m', hm', rfl⟩
      · exact Or.inr (by rw [List.mem_singleton.1 hm'])
    · rintro (⟨m', hm', rfl⟩ | rfl)
      · exact ⟨m', List.mem_append_left _ hm', rfl⟩
      · exact ⟨m, List.mem_append_right _ List.mem_cons_self, rfl⟩

/-- **The handles with names** are those that names were added for. -/
theorem nameLookup_filled_iff (entries : List ClassidMap) (h : Handle) :
    named (filled entries) h = true ↔ ∃ e ∈ entries, e.classid = h := by
  induction entries using List.reverseRecOn with
  | nil => simp [named_iff, filled, ClassidTables.empty]
  | append_singleton entries e ih =>
    rw [filled_snoc, named_classidMapAdd, ih]
    simp only [List.mem_append, List.mem_singleton, or_and_right, exists_or, exists_eq_left]

/-! ## Halves as numbers -/

theorem min_toNat (h : Handle) : (TC_H_MIN h).toNat = h.toNat % 65536 := by
  rw [TC_H_MIN, BitVec.toNat_and]
  exact Nat.and_two_pow_sub_one_eq_mod h.toNat 16

theorem maj_toNat (h : Handle) : (TC_H_MAJ h).toNat = h.toNat / 65536 * 65536 := by
  have hlt := h.isLt
  have hmask : TC_H_MAJ_MASK = BitVec.allOnes 32 <<< 16 := by decide
  rw [TC_H_MAJ, hmask, ← BitVec.shiftLeft_ushiftRight, BitVec.toNat_shiftLeft, BitVec.toNat_ushiftRight,
    Nat.shiftRight_eq_div_pow, Nat.shiftLeft_eq]
  omega

/-- handles with the major number of `p` -/
theorem below_parent (p : Handle) {k : ℕ} (hk : k < 65536) :
    TC_H_MAJ (TC_H_MAJ p + BitVec.ofNat 32 k) = TC_H_MAJ p ∧ (TC_H_MIN (TC_H_MAJ p + BitVec.ofNat 32 k)).toNat = k := by
  have hlt := p.isLt
  have hmaj := maj_toNat p
  have hsum : (TC_H_MAJ p + BitVec.ofNat 32 k).toNat = p.toNat / 65536 * 65536 + k := by
    rw [BitVec.toNat_add, BitVec.toNat_ofNat, hmaj]
    omega
  constructor
  · refine BitVec.eq_of_toNat_eq ?_
    rw [maj_toNat, hsum, hmaj]
    omega
  · rw [min_toNat, hsum]
    omega

theorem iterate_add_one (h : Handle) (n : ℕ) : (· + 1)^[n] h = h + BitVec.ofNat 32 n := by
  induction n with
  | zero => exact (BitVec.add_zero h).symm
  | succ n ih =>
    rw [Function.iterate_succ_apply', ih, BitVec.add_assoc]
    refine congrArg (h + ·) (BitVec.eq_of_toNat_eq ?_)
    rw [BitVec.toNat_add, BitVec.toNat_ofNat, BitVec.toNat_ofNat]
    exact (Nat.add_mod _ _ _).symm

theorem lastMinor_iff (h : Handle) : lastMinor h = true ↔ (TC_H_MIN h).toNat = 65535 := by
  rw [lastMinor, decide_eq_true_eq, ← BitVec.toNat_inj]
  exact Iff.rfl

/-! ## The counter -/

/-- how many major numbers there are for qdiscs -/
def BASES : ℕ := 49151

/-- the major numbers from 4000 on, with minor number zero -/
def baseAt (i : ℕ) : Handle := BitVec.ofNat 32 ((0x4000 + i) * 65536)

theorem baseAt_toNat {i : ℕ} (hi : i ≤ BASES) : (baseAt i).toNat = (0x4000 + i) * 65536 := by
  rw [BASES] at hi
  rw [baseAt, BitVec.toNat_ofNat]
  omega

theorem baseAt_min {i : ℕ} (hi : i ≤ BASES) : TC_H_MIN (baseAt i) = 0 := by
  refine BitVec.eq_of_toNat_eq ?_
  rw [min_toNat, baseAt_toNat hi, Nat.mul_mod_left]
  rfl

theorem nextBase_baseAt {i : ℕ} (hi : i < BASES) : nextBase (baseAt i) = baseAt ((i + 1) % BASES) := by
  have hsucc : baseAt i + 0x10000 = baseAt (i + 1) := by
    refine BitVec.eq_of_toNat_eq ?_
    have hlt := hi
    rw [BASES] at hlt
    rw [BitVec.toNat_add, baseAt_toNat hi.le, baseAt_toNat hi]
    change ((0x4000 + i) * 65536 + 65536) % 2 ^ 32 = _
    omega
  rw [nextBase, hsucc]
  by_cases hlast : i + 1 = BASES
  · rw [hlast, if_pos (by decide), Nat.mod_self]
    rfl
  · have hne : baseAt (i + 1) ≠ TC_H_MAJ TC_H_ROOT := by
      intro heq
      have hnat := congrArg BitVec.toNat heq
      rw [baseAt_toNat hi] at hnat
      change (0x4000 + (i + 1)) * 65536 = 4294901760 at hnat
      rw [BASES] at hlast
      omega
    rw [if_neg hne, Nat.mod_eq_of_lt (by omega)]

theorem iterate_nextBase {i : ℕ} (hi : i < BASES) (n : ℕ) : nextBase^[n] (baseAt i) = baseAt ((i + n) % BASES) := by
  induction n with
  | zero => rw [Function.iterate_zero_apply, Nat.add_zero, Nat.mod_eq_of_lt hi]
  | succ n ih =>
    rw [Function.iterate_succ_apply', ih, nextBase_baseAt (Nat.mod_lt _ (by decide)), Nat.mod_add_mod, Nat.add_assoc]

/-- the counter is at one of the major numbers for qdiscs -/
def OnBase (g : Generator) : Prop := ∃ i < BASES, g.base = baseAt i

theorem start_onBase (entries : List ClassidMap) : OnBase (start entries) :=
  ⟨0, by decide, (by decide : (0x40000000 : Handle) = baseAt 0)⟩

/-! ## Choosing -/

/-- a handle for this parent: with its major number, or with minor number zero -/
structure Suits (c : Call) (h : Handle) : Prop where
  parent : ¬ IsQdisc c.parent → TC_H_MAJ h = TC_H_MAJ c.parent
  qdisc : IsQdisc c.parent → TC_H_MIN h = 0

section
variable {fuel : ℕ} {g : Generator}

/-- **What is chosen** has no name, and suits the parent. -/
theorem chooseId_ok (hg : OnBase g) {c : Call} {base : Handle} {r : Except ℤ Handle}
    (h : chooseId fuel g c.parent = .ok (base, r)) :
    (∃ i < BASES, base = baseAt i) ∧ ∀ classid, r = .ok classid → named g.tables classid = false ∧ Suits c classid := by
  obtain ⟨i, hi, hbase⟩ := hg
  rw [chooseId] at h
  by_cases hq : IsQdisc c.parent
  · rw [if_pos hq, hbase] at h
    split at h
    · rename_i found hsearch
      obtain ⟨hfree, n, hfound, -⟩ := search_found hsearch
      rw [iterate_nextBase hi] at hfound
      obtain ⟨rfl, rfl⟩ := Prod.mk.inj (Except.ok.inj h)
      have hlt : (i + (n + 1)) % BASES < BASES := Nat.mod_lt _ (by decide)
      refine ⟨⟨_, hlt, hfound⟩, fun classid hr => ?_⟩
      obtain rfl := Except.ok.inj hr
      exact ⟨hfree, fun hno => absurd hq hno, fun _ => by rw [hfound]; exact baseAt_min hlt.le⟩
    · cases h
  · rw [if_neg hq] at h
    split at h
    · rename_i found hsearch
      obtain ⟨hfree, n, hfound, hbefore⟩ := search_found hsearch
      obtain ⟨rfl, rfl⟩ := Prod.mk.inj (Except.ok.inj h)
      refine ⟨⟨i, hi, hbase⟩, fun classid hr => ?_⟩
      obtain rfl := Except.ok.inj hr
      have hshort : n + 1 < 65536 := by
        by_contra hlong
        have hstop := hbefore 65534 (by omega)
        rw [iterate_add_one, ← Bool.not_eq_true, lastMinor_iff] at hstop
        exact hstop (below_parent c.parent (by decide)).2
      rw [iterate_add_one] at hfound
      exact ⟨hfree, fun _ => by rw [hfound]; exact (below_parent c.parent hshort).1, fun hyes => absurd hyes hq⟩
    · obtain ⟨rfl, rfl⟩ := Prod.mk.inj (Except.ok.inj h)
      refine ⟨⟨i, hi, hbase⟩, fun classid hr => ?_⟩
      cases hr
    · cases h

/-- **For a class** the search always ends. -/
theorem chooseId_returns (hfuel : 65535 ≤ fuel) {parent : Handle} (hq : ¬ IsQdisc parent) :
    ∃ r, chooseId fuel g parent = .ok r := by
  have hsome : (search (· + 1) lastMinor (named g.tables) fuel (TC_H_MAJ parent)).isSome := by
    refine search_returns_iff.2 ⟨65534, by omega, Or.inl ?_⟩
    rw [iterate_add_one, lastMinor_iff]
    exact (below_parent parent (by decide)).2
  obtain ⟨r, hr⟩ := Option.isSome_iff_exists.1 hsome
  rw [chooseId, if_neg hq, hr]
  cases r with
  | none => exact ⟨_, rfl⟩
  | some h => exact ⟨_, rfl⟩

/-- **For a qdisc** it ends if one of the major numbers has no name. -/
theorem chooseId_returns_qdisc (hg : OnBase g) (hfuel : BASES ≤ fuel) {parent : Handle} (hq : IsQdisc parent)
    (hfree : ∃ j < BASES, named g.tables (baseAt j) = false) : ∃ r, chooseId fuel g parent = .ok r := by
  obtain ⟨i, hi, hbase⟩ := hg
  obtain ⟨j, hj, hname⟩ := hfree
  have hround : (i + ((j + BASES - i - 1) % BASES + 1)) % BASES = j := by
    rw [BASES] at hi hj ⊢
    omega
  have hsome : (search nextBase (fun _ => false) (named g.tables) fuel g.base).isSome := by
    refine search_returns_iff.2 ⟨(j + BASES - i - 1) % BASES, (Nat.mod_lt _ (by decide)).trans_le hfuel, Or.inr ?_⟩
    rw [hbase, iterate_nextBase hi, hround]
    exact hname
  obtain ⟨r, hr⟩ := Option.isSome_iff_exists.1 hsome
  rw [chooseId, if_pos hq, hr]
  cases r with
  | none => exact absurd hr (search_unstopped (fun _ => rfl) _ _)
  | some h => exact ⟨_, rfl⟩

/-- **Without one** it never ends. -/
theorem chooseId_never (hg : OnBase g) {parent : Handle} (hq : IsQdisc parent)
    (hall : ∀ j < BASES, named g.tables (baseAt j) = true) : chooseId fuel g parent = .error .never := by
  obtain ⟨i, hi, hbase⟩ := hg
  have hnone : ¬ (search nextBase (fun _ => false) (named g.tables) fuel g.base).isSome := by
    rw [search_returns_iff]
    rintro ⟨n, -, hstop | hfree⟩
    · cases hstop
    · rw [hbase, iterate_nextBase hi, hall _ (Nat.mod_lt _ (by decide))] at hfree
      cases hfree
  rw [chooseId, if_pos hq, Option.not_isSome_iff_eq_none.1 hnone]

end

/-! ## Runs -/

/-- there is memory for the name -/
def HasMemory (c : Call) : Prop := c.mapMemory = true ∧ c.nodeMemory = true

instance (c : Call) : Decidable (HasMemory c) := inferInstanceAs (Decidable (_ ∧ _))

/-- with memory, a call fails and leaves the tables alone, or adds the name of the handle that was chosen -/
def Answered (g : Generator) (c : Call) (choice : Except ℤ Handle) (t : ClassidTables) (res : Except ℤ Handle) : Prop :=
  (∃ err, res = .error err ∧ t = g.tables) ∨
    ∃ classid, choice = .ok classid ∧ res = .ok classid ∧ t = classidMapAdd g.tables ⟨classid, c.name⟩

/-- what follows the search returns, with the counter that was chosen; only without memory an entry may be freed -/
theorem generate_chosen {fuel : ℕ} {g : Generator} {c : Call} {base : Handle} {choice : Except ℤ Handle}
    (h : chooseId fuel g c.parent = .ok (base, choice)) :
    (rtnlClassidGenerate fuel g c = .error .dangling ∧ ¬ HasMemory c) ∨
      ∃ t res, rtnlClassidGenerate fuel g c = .ok (⟨t, base⟩, res) ∧ (HasMemory c → Answered g c choice t res) := by
  rw [rtnlClassidGenerate, h]
  cases choice with
  | error err => exact Or.inr ⟨_, _, rfl, fun _ => Or.inl ⟨err, rfl, rfl⟩⟩
  | ok classid =>
    cases c.openErr with
    | some err =>
      dsimp only
      split_ifs <;> exact Or.inr ⟨_, _, rfl, fun _ => Or.inl ⟨_, rfl, rfl⟩⟩
    | none =>
      dsimp only
      split_ifs with hpath hmap hnode
      · exact Or.inr ⟨_, _, rfl, fun _ => Or.inl ⟨_, rfl, rfl⟩⟩
      · exact Or.inr ⟨_, _, rfl, fun hmem => absurd (hmem.1.symm.trans hmap) (by decide)⟩
      · exact Or.inl ⟨rfl, fun hmem => absurd (hmem.2.symm.trans hnode) (by decide)⟩
      · exact Or.inr ⟨_, _, rfl, fun _ => Or.inr ⟨classid, rfl, rfl, rfl⟩⟩

theorem generate_cases {fuel : ℕ} {g g' : Generator} {c : Call} {res : Except ℤ Handle}
    (h : rtnlClassidGenerate fuel g c = .ok (g', res)) :
    ∃ choice, chooseId fuel g c.parent = .ok (g'.base, choice) ∧ (HasMemory c → Answered g c choice g'.tables res) := by
  cases hchoose : chooseId fuel g c.parent with
  | error halt =>
    rw [rtnlClassidGenerate, hchoose] at h
    cases h
  | ok x =>
    rcases generate_chosen hchoose with ⟨hgen, -⟩ | ⟨t, r, hgen, hanswer⟩
    · rw [hgen] at h
      cases h
    · rw [hgen] at h
      obtain ⟨rfl, rfl⟩ := Prod.mk.inj (Except.ok.inj h)
      exact ⟨x.2, rfl, hanswer⟩

/-- **One call** with memory: the counter stays on a major number, names stay, and a handle that is returned had none. -/
theorem generate_step {fuel : ℕ} {g g' : Generator} (hg : OnBase g) {c : Call} (hmem : HasMemory c) {r : Option Handle}
    (h : generateStep fuel g c = some (g', r)) : OnBase g' ∧ (∀ x, named g.tables x = true → named g'.tables x = true) ∧
      ∀ classid, r = some classid → named g.tables classid = false ∧ named g'.tables classid = true ∧ Suits c classid := by
  obtain ⟨⟨g1, res⟩, hres, hpair⟩ := Option.map_eq_some_iff.1 h
  obtain ⟨rfl, rfl⟩ := Prod.mk.inj hpair
  have hres : rtnlClassidGenerate fuel g c = .ok (g1, res) := by
    cases hgen : rtnlClassidGenerate fuel g c with
    | error halt =>
      rw [hgen] at hres
      cases hres
    | ok x =>
      rw [hgen] at hres
      exact congrArg _ (Option.some.inj hres)
  obtain ⟨choice, hchoose, hanswer⟩ := generate_cases hres
  obtain ⟨hbase, hchosen⟩ := chooseId_ok hg hchoose
  refine ⟨hbase, ?_⟩
  rcases hanswer hmem with ⟨err, rfl, htables⟩ | ⟨classid, rfl, rfl, htables⟩
  · rw [htables]
    exact ⟨fun x hx => hx, fun classid hno => by cases hno⟩
  · rw [htables]
    refine ⟨fun x hx => (named_classidMapAdd _ _ _).2 (Or.inl hx), fun classid' heq => ?_⟩
    obtain rfl := Option.some.inj heq
    obtain ⟨hfree, hsuits⟩ := hchosen classid rfl
    exact ⟨hfree, (named_classidMapAdd _ _ _).2 (Or.inr rfl), hsuits⟩

theorem generate_supplies (fuel : ℕ) :
    Supplies (generateStep fuel) OnBase (fun g h => named g.tables h = true) HasMemory Suits where
  keepsInv hg hmem h := (generate_step hg hmem h).1
  keeps hg hmem h := (generate_step hg hmem h).2.1
  free hg hmem h := by
    rw [Bool.not_eq_true]
    exact ((generate_step hg hmem h).2.2 _ rfl).1
  takes hg hmem h := ((generate_step hg hmem h).2.2 _ rfl).2.1
  suits hg hmem h := ((generate_step hg hmem h).2.2 _ rfl).2.2

/-- the handles of a run have no names from before, suit their parents, and are all different -/
structure FreshHandles (entries : List ClassidMap) (given : List (Call × Handle)) : Prop where
  unnamed : ∀ x ∈ given, ∀ e ∈ entries, e.classid ≠ x.2
  suits : ∀ x ∈ given, Suits x.1 x.2
  different : (given.map Prod.snd).Nodup

/-- **Fresh handles.** Where every call has memory for its name, the calls of a run return handles that no entry had before,
with the major number of the parent, or minor number zero for a qdisc; and no two of them are the same. -/
theorem generated_fresh (fuel : ℕ) (entries : List ClassidMap) {calls : List Call} (hmem : ∀ c ∈ calls, HasMemory c) :
    FreshHandles entries (generated fuel entries calls) := by
  obtain ⟨hfresh, hnodup⟩ := results_fresh (generate_supplies fuel) (start_onBase entries) hmem
  refine ⟨fun x hx e he heq => ?_, fun x hx => (hfresh x hx).2, hnodup⟩
  exact (hfresh x hx).1 ((nameLookup_filled_iff entries x.2).2 ⟨e, he, heq⟩)

/-- a call that finds everything it needs -/
def plainCall (name : List Char) (parent : Handle) : Call :=
  ⟨name, parent, true, none, true, true, ⟨true, true, none, [], 0⟩⟩

theorem generated_fresh_two : FreshHandles webNames
    (generated 2 webNames [plainCall "a".toList TC_H_ROOT, plainCall "b".toList 0x10000]) :=
  generated_fresh 2 webNames (by decide)

/-- what is said of the handles: they have no names from before, the major number of the parent or one that is free, and are
all different -/
structure FreshAndFree (entries : List ClassidMap) (given : List (Call × Handle)) : Prop where
  unnamed : ∀ x ∈ given, ∀ e ∈ entries, e.classid ≠ x.2
  parent : ∀ x ∈ given, ¬ IsQdisc x.1.parent → TC_H_MAJ x.2 = TC_H_MAJ x.1.parent
  free : ∀ x ∈ given, IsQdisc x.1.parent → ∀ e ∈ entries, TC_H_MAJ e.classid ≠ TC_H_MAJ x.2
  different : (given.map Prod.snd).Nodup

/-- **A used major number, and a repeated handle.** A class has the name 4001:1, and the handle 4001: is generated for a
qdisc. And a call without memory for the entry returns 1:1, while the file is unchanged; so does the next one. -/
theorem used_major_and_repeated :
    ¬ FreshAndFree [⟨0x40010001, "web".toList⟩] (generated 1 [⟨0x40010001, "web".toList⟩] [plainCall "a".toList TC_H_ROOT]) ∧
      ¬ FreshAndFree [] (generated 1 [] [{ plainCall "a".toList 0x10000 with mapMemory := false },
        plainCall "b".toList 0x10000]) := by
  constructor
  · have hrun : (generated 1 [⟨0x40010001, "web".toList⟩] [plainCall "a".toList TC_H_ROOT]).map (fun x => (x.1.parent, x.2)) =
        [(TC_H_ROOT, 0x40010000)] := by rfl
    intro h
    obtain ⟨x, hx, heq⟩ := List.mem_map.1 (hrun ▸ List.mem_cons_self : (TC_H_ROOT, (0x40010000 : Handle)) ∈ _)
    obtain ⟨hparent, hhandle⟩ := Prod.mk.inj heq
    have hfree := h.free x hx (by rw [hparent]; decide) _ List.mem_cons_self
    rw [hhandle] at hfree
    exact hfree (by decide)
  · have hrun : (generated 1 [] [{ plainCall "a".toList 0x10000 with mapMemory := false },
        plainCall "b".toList 0x10000]).map Prod.snd = [0x10001, 0x10001] := by rfl
    intro h
    have hdifferent := h.different
    rw [hrun] at hdifferent
    revert hdifferent
    decide

/-! ## Calls that do not return -/

/-- the calls one after the other -/
def generateAll (fuel : ℕ) : Generator → List Call → Except Halt Generator
  | g, [] => .ok g
  | g, c :: calls =>
    match rtnlClassidGenerate fuel g c with
    | .error halt => .error halt
    | .ok (g', _) => generateAll fuel g' calls

/-- the call asks for a major number, and each of them has a name -/
def Exhausted (g : Generator) (c : Call) : Prop := IsQdisc c.parent ∧ ∀ j < BASES, named g.tables (baseAt j) = true

section
variable {fuel : ℕ} {g g' : Generator}

theorem chooseId_never_iff (hg : OnBase g) (hfuel : 65535 ≤ fuel) (c : Call) :
    chooseId fuel g c.parent = .error .never ↔ Exhausted g c := by
  constructor
  · intro hnever
    have hstuck : ∀ r, chooseId fuel g c.parent ≠ .ok r := fun r hr => by rw [hnever] at hr; cases hr
    have hq : IsQdisc c.parent := by
      by_contra hno
      obtain ⟨r, hr⟩ := chooseId_returns (g := g) hfuel hno
      exact hstuck r hr
    refine ⟨hq, fun j hj => ?_⟩
    by_contra hfree
    obtain ⟨r, hr⟩ := chooseId_returns_qdisc hg ((by decide : BASES ≤ 65535).trans hfuel) hq ⟨j, hj, Bool.eq_false_iff.2 hfree⟩
    exact hstuck r hr
  · rintro ⟨hq, hall⟩
    exact chooseId_never hg hq hall

/-- **One call** hangs in the search, or not at all. -/
theorem generate_never_iff (hg : OnBase g) (hfuel : 65535 ≤ fuel) (c : Call) :
    rtnlClassidGenerate fuel g c = .error .never ↔ Exhausted g c := by
  rw [← chooseId_never_iff hg hfuel c]
  cases hchoose : chooseId fuel g c.parent with
  | error halt =>
    have hgen : rtnlClassidGenerate fuel g c = .error halt := by rw [rtnlClassidGenerate, hchoose]
    rw [hgen, Except.error.injEq, Except.error.injEq]
  | ok x =>
    refine iff_of_false ?_ (fun h => by cases h)
    rcases generate_chosen hchoose with ⟨hgen, -⟩ | ⟨t, res, hgen, -⟩ <;> rw [hgen] <;> intro h <;> cases h

theorem generateAll_never_iff (hg : OnBase g) (hfuel : 65535 ≤ fuel) (calls : List Call) :
    generateAll fuel g calls = .error .never ↔
      ∃ before c after g', calls = before ++ c :: after ∧ generateAll fuel g before = .ok g' ∧ Exhausted g' c := by
  induction calls generalizing g with
  | nil =>
    refine iff_of_false (fun h => by cases h) ?_
    rintro ⟨before, c, after, -, hcalls, -⟩
    exact absurd hcalls.symm (List.append_ne_nil_of_right_ne_nil before (List.cons_ne_nil c after))
  | cons c calls ih =>
    have hfirst := generate_never_iff hg hfuel c
    -- the first call hangs, or the run goes on after it
    have hsplit : (∃ before c' after g', c :: calls = before ++ c' :: after ∧ generateAll fuel g before = .ok g' ∧ Exhausted g' c') ↔
        Exhausted g c ∨ ∃ before c' after g', calls = before ++ c' :: after ∧
          generateAll fuel g (c :: before) = .ok g' ∧ Exhausted g' c' := by
      constructor
      · rintro ⟨before, c', after, g', hcalls, hrun, hfull⟩
        cases before with
        | nil =>
          obtain ⟨rfl, rfl⟩ := List.cons.inj hcalls
          obtain rfl := Except.ok.inj hrun
          exact Or.inl hfull
        | cons b before =>
          obtain ⟨rfl, rfl⟩ := List.cons.inj hcalls
          exact Or.inr ⟨before, c', after, g', rfl, hrun, hfull⟩
      · rintro (hfull | ⟨before, c', after, g', rfl, hrun, hfull⟩)
        · exact ⟨[], c, calls, g, rfl, rfl, hfull⟩
        · exact ⟨c :: before, c', after, g', rfl, hrun, hfull⟩
    rw [hsplit, ← hfirst, generateAll]
    cases hgen : rtnlClassidGenerate fuel g c with
    | error halt => simp [generateAll, hgen]
    | ok x =>
      obtain ⟨choice, hchoose, -⟩ := generate_cases hgen
      simp [generateAll, hgen, ih (chooseId_ok hg hchoose).1]

end

end Libnl.ClassidGenerate
