/-
Caches provided for global use (`lib/cache_mngt.c`).

Every type of cache is an operations set, registered in a list. A cache that is provided becomes the `co_major_cache` of
an operations set, which holds a reference on it, and other modules find it there by the name of the type. The set itself
is kept from going away by a reference as long as it has such a cache.

`nl_cache_mngt_provide` takes its reference without giving back the one on the cache provided before, and finds the
operations set by the object type alone: `route/link` and `route/link/bridge` are caches of the same objects, and both are
provided in the one registered last.

- `opsRefs_step`: the references of operations sets are right, whatever is called.
- `provisioning_iff`: the references of caches are right all along a run exactly when every cache is provided in its own
  operations set, while this has no cache.
- `provide_twice`: the shortest run that goes wrong.

Reference counters are integers here, as no run of the library gets near the bounds of an `int`.
-/
import Mathlib.Tactic
import Libnl.Core.Prefix

namespace Libnl.Mngt

open Prefix

abbrev OpsId := ℕ
abbrev CacheId := ℕ

/-! ## The code -/

/-- the registered operations sets, the one registered last first, and what of them does not change -/
structure Registry where
  cacheOps : List OpsId
  coName : OpsId → String
  /-- which `struct nl_object_ops` -/
  coObjOps : OpsId → ℕ

/-- the counters and pointers of operations sets and caches -/
structure State where
  coRefcnt : OpsId → ℤ
  coMajorCache : OpsId → Option CacheId
  cOps : CacheId → OpsId
  cRefcnt : CacheId → ℤ
  /-- allocated, and not freed -/
  live : CacheId → Bool
  /-- `BUG()` has been reached -/
  bug : Bool

def nlCacheOpsGet (s : State) (o : OpsId) : State :=
  { s with coRefcnt := Function.update s.coRefcnt o (s.coRefcnt o + 1) }

def nlCacheOpsPut (s : State) (o : OpsId) : State :=
  { s with coRefcnt := Function.update s.coRefcnt o (s.coRefcnt o - 1) }

/-- `__nl_cache_ops_lookup` -/
def opsLookup (reg : Registry) (name : String) : Option OpsId := reg.cacheOps.find? fun o => reg.coName o = name

def cacheOpsLookupForObj (reg : Registry) (objOps : ℕ) : Option OpsId :=
  reg.cacheOps.find? fun o => reg.coObjOps o = objOps

def nlCacheOpsLookupSafe (reg : Registry) (s : State) (name : String) : State × Option OpsId :=
  match opsLookup reg name with
  | some o => (nlCacheOpsGet s o, some o)
  | none => (s, none)

def nlCacheAlloc (s : State) (c : CacheId) (o : OpsId) : State :=
  { s with
    cOps := Function.update s.cOps c o
    cRefcnt := Function.update s.cRefcnt c 1
    live := Function.update s.live c true }

def nlCacheGet (s : State) (c : CacheId) : State :=
  { s with cRefcnt := Function.update s.cRefcnt c (s.cRefcnt c + 1) }

/-- `nl_cache_free`, which is also `nl_cache_put` -/
def nlCacheFree (s : State) (c : CacheId) : State :=
  { s with
    cRefcnt := Function.update s.cRefcnt c (s.cRefcnt c - 1)
    live := if s.cRefcnt c - 1 ≤ 0 then Function.update s.live c false else s.live }

def nlCacheMngtProvide (reg : Registry) (s : State) (c : CacheId) : State :=
  match cacheOpsLookupForObj reg (reg.coObjOps (s.cOps c)) with
  | none => { s with bug := true }
  | some o =>
    let s := nlCacheGet s c
    let s := if (s.coMajorCache o).isNone then nlCacheOpsGet s o else s
    { s with coMajorCache := Function.update s.coMajorCache o (some c) }

def nlCacheMngtUnprovide (reg : Registry) (s : State) (c : CacheId) : State :=
  match cacheOpsLookupForObj reg (reg.coObjOps (s.cOps c)) with
  | none => { s with bug := true }
  | some o =>
    if s.coMajorCache o = some c then
      let s := nlCacheFree s c
      let s := nlCacheOpsPut s o
      { s with coMajorCache := Function.update s.coMajorCache o none }
    else s

def nlCacheMngtRequire (reg : Registry) (s : State) (name : String) : State × Option CacheId :=
  match nlCacheOpsLookupSafe reg s name with
  | (s, some o) => (nlCacheOpsPut s o, s.coMajorCache o)
  | (s, none) => (s, none)

def nlCacheMngtRequireSafe (reg : Registry) (s : State) (name : String) : State × Option CacheId :=
  match nlCacheMngtRequire reg s name with
  | (s, some c) => (nlCacheGet s c, some c)
  | (s, none) => (s, none)

/-! ## Runs -/

/-- the state, and how many references the users hold on each cache -/
structure Sys where
  state : State
  held : CacheId → ℕ

inductive Call where
  | alloc (c : CacheId) (o : OpsId)
  | get (c : CacheId)
  | put (c : CacheId)
  | provide (c : CacheId)
  | unprovide (c : CacheId)
  | require (name : String)
  | requireSafe (name : String)

variable (reg : Registry)

def step (s : Sys) : Call → Sys
  | .alloc c o => ⟨nlCacheAlloc s.state c o, Function.update s.held c 1⟩
  | .get c => ⟨nlCacheGet s.state c, Function.update s.held c (s.held c + 1)⟩
  | .put c => ⟨nlCacheFree s.state c, Function.update s.held c (s.held c - 1)⟩
  | .provide c => ⟨nlCacheMngtProvide reg s.state c, s.held⟩
  | .unprovide c => ⟨nlCacheMngtUnprovide reg s.state c, s.held⟩
  | .require name => ⟨(nlCacheMngtRequire reg s.state name).1, s.held⟩
  | .requireSafe name =>
    match nlCacheMngtRequireSafe reg s.state name with
    | (s', some c) => ⟨s', Function.update s.held c (s.held c + 1)⟩
    | (s', none) => ⟨s', s.held⟩

/-- nothing is allocated or provided; `base` are the references others hold on the operations sets -/
def start (base : OpsId → ℤ) : Sys :=
  ⟨⟨base, fun _ => none, fun _ => 0, fun _ => 0, fun _ => false, false⟩, fun _ => 0⟩

def run (base : OpsId → ℤ) (calls : List Call) : Sys := calls.foldl (step reg) (start base)

/-- what is asked of a caller: caches have a registered type and are used while they live, references are given back by
who holds them -/
def Legal (s : Sys) : Call → Prop
  | .alloc c o => s.state.live c = false ∧ o ∈ reg.cacheOps
  | .get c => s.state.live c = true
  | .put c => 0 < s.held c
  | .provide c => s.state.live c = true
  | .unprovide c => s.state.live c = true
  | .require _ => True
  | .requireSafe _ => True

/-- the cache is the one its type provides -/
def IsMajor (s : State) (c : CacheId) : Prop := s.coMajorCache (s.cOps c) = some c

instance (s : State) (c : CacheId) : Decidable (IsMajor s c) := inferInstanceAs (Decidable (_ = _))

/-- a cache has the references of its users, and one more exactly while its type provides it -/
def CacheRefs (s : Sys) : Prop := ∀ c, s.state.cRefcnt c = s.held c + if IsMajor s.state c then 1 else 0

/-- an operations set has one reference for its major cache -/
def OpsRefs (base : OpsId → ℤ) (s : State) : Prop :=
  ∀ o, s.coRefcnt o = base o + if (s.coMajorCache o).isSome then 1 else 0

/-- a cache is provided in its own operations set, and this has no cache -/
def ProvidesFresh (s : Sys) : Call → Prop
  | .provide c => cacheOpsLookupForObj reg (reg.coObjOps (s.state.cOps c)) = some (s.state.cOps c) ∧
      s.state.coMajorCache (s.state.cOps c) = none
  | _ => True

/-! ## One call -/

variable {reg}

@[simp] theorem isMajor_iff {s : State} {c : CacheId} : IsMajor s c ↔ s.coMajorCache (s.cOps c) = some c := Iff.rfl

/-- looking for a type takes a reference on it, and gives it back -/
theorem require_state (s : State) (name : String) : (nlCacheMngtRequire reg s name).1 = s := by
  unfold nlCacheMngtRequire nlCacheOpsLookupSafe
  cases opsLookup reg name with
  | none => rfl
  | some o =>
    simp only [nlCacheOpsPut, nlCacheOpsGet, Function.update_self, Function.update_idem, add_sub_cancel_right,
      Function.update_eq_self]

/-- a cache that is found is the major cache of some type, and the user gets a reference on it -/
theorem step_requireSafe (s : Sys) (name : String) :
    step reg s (.requireSafe name) = s ∨ ∃ o c, s.state.coMajorCache o = some c ∧
      step reg s (.requireSafe name) = step reg s (.get c) := by
  have hstate := @require_state reg s.state name
  cases hreq : nlCacheMngtRequire reg s.state name with
  | mk s' found =>
    rw [hreq] at hstate
    have hs : s' = s.state := hstate
    subst hs
    cases found with
    | none =>
      left
      simp only [step, nlCacheMngtRequireSafe, hreq]
    | some c =>
      right
      obtain ⟨o, ho⟩ : ∃ o, s.state.coMajorCache o = some c := by
        unfold nlCacheMngtRequire nlCacheOpsLookupSafe at hreq
        cases hname : opsLookup reg name with
        | none => simp [hname] at hreq
        | some o =>
          refine ⟨o, ?_⟩
          simpa [hname, nlCacheOpsGet] using congrArg Prod.snd hreq
      refine ⟨o, c, ho, ?_⟩
      simp only [step, nlCacheMngtRequireSafe, hreq]

/-- what a cache that is provided becomes part of -/
theorem provide_eq {s : State} {c : CacheId} {o : OpsId}
    (hfor : cacheOpsLookupForObj reg (reg.coObjOps (s.cOps c)) = some o) :
    nlCacheMngtProvide reg s c = { s with
      coRefcnt := if (s.coMajorCache o).isNone then Function.update s.coRefcnt o (s.coRefcnt o + 1) else s.coRefcnt
      cRefcnt := Function.update s.cRefcnt c (s.cRefcnt c + 1)
      coMajorCache := Function.update s.coMajorCache o (some c) } := by
  unfold nlCacheMngtProvide
  rw [hfor]
  cases hmaj : s.coMajorCache o with
  | none => simp [nlCacheGet, nlCacheOpsGet, hmaj]
  | some d => simp [nlCacheGet, hmaj]

/-- unproviding a cache that is the current one -/
theorem unprovide_eq {s : State} {c : CacheId} {o : OpsId}
    (hfor : cacheOpsLookupForObj reg (reg.coObjOps (s.cOps c)) = some o) (hc : s.coMajorCache o = some c) :
    nlCacheMngtUnprovide reg s c = { s with
      coRefcnt := Function.update s.coRefcnt o (s.coRefcnt o - 1)
      cRefcnt := Function.update s.cRefcnt c (s.cRefcnt c - 1)
      live := if s.cRefcnt c - 1 ≤ 0 then Function.update s.live c false else s.live
      coMajorCache := Function.update s.coMajorCache o none } := by
  simp only [nlCacheMngtUnprovide, hfor, hc, if_true, nlCacheFree, nlCacheOpsPut]

/-- a registered type, or one of the same objects before it, is found -/
theorem lookupForObj_some {o : OpsId} (h : o ∈ reg.cacheOps) : ∃ o', cacheOpsLookupForObj reg (reg.coObjOps o) = some o' := by
  refine Option.isSome_iff_exists.1 ?_
  unfold cacheOpsLookupForObj
  rw [List.find?_isSome]
  exact ⟨o, h, by simp⟩

/-- **References of operations sets.** Every call leaves them right. -/
theorem opsRefs_step {base : OpsId → ℤ} {s : Sys} (h : OpsRefs base s.state) (call : Call) :
    OpsRefs base (step reg s call).state := by
  cases call with
  | alloc c o => exact h
  | get c => exact h
  | put c => exact h
  | require name => rwa [step, require_state]
  | requireSafe name =>
    rcases @step_requireSafe reg s name with heq | ⟨o, c, -, heq⟩
    · rwa [heq]
    · rw [heq]
      exact h
  | provide c =>
    simp only [step]
    cases hfor : cacheOpsLookupForObj reg (reg.coObjOps (s.state.cOps c)) with
    | none =>
      simp only [nlCacheMngtProvide, hfor]
      exact h
    | some o =>
      rw [provide_eq hfor]
      intro o'
      have ho' := h o'
      by_cases heq : o' = o
      · subst heq
        cases hmaj : s.state.coMajorCache o' with
        | none =>
          simp only [Option.isNone_none, if_true, Function.update_self, Option.isSome_some]
          simp only [hmaj, Option.isSome_none, Bool.false_eq_true, if_false] at ho'
          omega
        | some d => simpa [hmaj] using ho'
      · cases hmaj : s.state.coMajorCache o with
        | none => simpa [heq] using ho'
        | some d => simpa [heq] using ho'
  | unprovide c =>
    simp only [step]
    cases hfor : cacheOpsLookupForObj reg (reg.coObjOps (s.state.cOps c)) with
    | none =>
      simp only [nlCacheMngtUnprovide, hfor]
      exact h
    | some o =>
      by_cases hc : s.state.coMajorCache o = some c
      · rw [unprovide_eq hfor hc]
        intro o'
        have ho' := h o'
        by_cases heq : o' = o
        · subst heq
          simp only [hc, Option.isSome_some, if_true] at ho'
          simp only [Function.update_self, Option.isSome_none, Bool.false_eq_true, if_false]
          omega
        · simpa [heq] using ho'
      · simp only [nlCacheMngtUnprovide, hfor, if_neg hc]
        exact h

/-- the references of caches, and where a cache is provided -/
structure Inv (reg : Registry) (s : Sys) : Prop where
  refs : CacheRefs s
  /-- a set provides caches of its own -/
  own : ∀ o c, s.state.coMajorCache o = some c → s.state.cOps c = o
  live : ∀ c, s.state.live c = true ↔ 0 < s.state.cRefcnt c
  typed : ∀ c, s.state.live c = true → s.state.cOps c ∈ reg.cacheOps

theorem start_inv (base : OpsId → ℤ) : Inv reg (start base) where
  refs _ := rfl
  own _ _ h := nomatch h
  live c := by simp [start]
  typed _ h := nomatch h

/-- a cache that has been freed, or never was there: nobody holds it, and no type provides it -/
theorem Inv.gone {s : Sys} (h : Inv reg s) {c : CacheId} (hc : s.state.live c = false) :
    s.state.cRefcnt c = 0 ∧ s.held c = 0 ∧ ∀ o, s.state.coMajorCache o ≠ some c := by
  have hrefs := h.refs c
  have hpos : ¬ 0 < s.state.cRefcnt c := fun hpos => by
    have := (h.live c).2 hpos
    rw [hc] at this
    exact Bool.false_ne_true this
  have hmaj : ¬ IsMajor s.state c := fun hmaj => by
    rw [if_pos hmaj] at hrefs
    omega
  rw [if_neg hmaj] at hrefs
  refine ⟨by omega, by omega, fun o ho => hmaj ?_⟩
  rw [isMajor_iff, h.own o c ho]
  exact ho

theorem Inv.alloc {s : Sys} (h : Inv reg s) {c : CacheId} {o : OpsId} (hc : s.state.live c = false)
    (ho : o ∈ reg.cacheOps) : Inv reg (step reg s (.alloc c o)) := by
  obtain ⟨-, -, hmaj⟩ := h.gone hc
  refine ⟨fun d => ?_, fun o' d hd => ?_, fun d => ?_, fun d hd => ?_⟩
  · by_cases hdc : d = c
    · subst hdc
      simp [step, nlCacheAlloc, hmaj o]
    · simpa [step, nlCacheAlloc, hdc] using h.refs d
  · have hdc : d ≠ c := fun heq => hmaj o' (heq ▸ hd)
    simpa [step, nlCacheAlloc, hdc] using h.own o' d hd
  · by_cases hdc : d = c
    · subst hdc
      simp [step, nlCacheAlloc]
    · simpa [step, nlCacheAlloc, hdc] using h.live d
  · by_cases hdc : d = c
    · subst hdc
      simpa [step, nlCacheAlloc] using ho
    · simp only [step, nlCacheAlloc, Function.update_of_ne hdc] at hd ⊢
      exact h.typed d hd

theorem Inv.get {s : Sys} (h : Inv reg s) {c : CacheId} (hc : s.state.live c = true) :
    Inv reg (step reg s (.get c)) := by
  refine ⟨fun d => ?_, h.own, fun d => ?_, h.typed⟩
  · by_cases hdc : d = c
    · subst hdc
      have hrefs := h.refs d
      simp only [step, nlCacheGet, Function.update_self, isMajor_iff] at hrefs ⊢
      push_cast
      omega
    · simpa [step, nlCacheGet, hdc] using h.refs d
  · by_cases hdc : d = c
    · subst hdc
      have hpos := (h.live d).1 hc
      simp only [step, nlCacheGet, Function.update_self, hc, true_iff]
      omega
    · simpa [step, nlCacheGet, hdc] using h.live d

/-- a cache lives as long as it has a reference -/
theorem free_live {s : State} (hlive : ∀ c, s.live c = true ↔ 0 < s.cRefcnt c) (c d : CacheId) :
    (nlCacheFree s c).live d = true ↔ 0 < (nlCacheFree s c).cRefcnt d := by
  by_cases hdc : d = c
  · subst hdc
    simp only [nlCacheFree, Function.update_self]
    by_cases hlast : s.cRefcnt d - 1 ≤ 0
    · rw [if_pos hlast, Function.update_self]
      simp only [Bool.false_eq_true, false_iff]
      omega
    · rw [if_neg hlast, hlive d]
      omega
  · simp only [nlCacheFree, Function.update_of_ne hdc]
    rw [← hlive d]
    split_ifs
    · rw [Function.update_of_ne hdc]
    · exact Iff.rfl

/-- freeing brings no cache back -/
theorem live_of_free {s : State} {c d : CacheId} (h : (nlCacheFree s c).live d = true) : s.live d = true := by
  simp only [nlCacheFree] at h
  split_ifs at h
  · by_cases hdc : d = c
    · subst hdc
      simp at h
    · rwa [Function.update_of_ne hdc] at h
  · exact h

theorem Inv.put {s : Sys} (h : Inv reg s) {c : CacheId} (hc : 0 < s.held c) : Inv reg (step reg s (.put c)) := by
  refine ⟨fun d => ?_, h.own, free_live h.live c, fun d hd => h.typed d (live_of_free hd)⟩
  by_cases hdc : d = c
  · subst hdc
    have hrefs := h.refs d
    simp only [step, nlCacheFree, Function.update_self, isMajor_iff] at hrefs ⊢
    omega
  · simpa [step, nlCacheFree, hdc] using h.refs d

theorem Inv.provide {s : Sys} (h : Inv reg s) {c : CacheId} (hc : s.state.live c = true)
    (hok : ProvidesFresh reg s (.provide c)) : Inv reg (step reg s (.provide c)) := by
  obtain ⟨hfor, hnone⟩ := hok
  have hother : ∀ d, s.state.cOps d = s.state.cOps c → ¬ IsMajor s.state d := fun d hd => by
    rw [isMajor_iff, hd, hnone]
    exact nofun
  simp only [step, provide_eq hfor]
  refine ⟨fun d => ?_, fun o d hd => ?_, fun d => ?_, h.typed⟩
  · have hrefs := h.refs d
    by_cases hdc : d = c
    · subst hdc
      rw [if_neg (hother d rfl)] at hrefs
      simp only [isMajor_iff, Function.update_self, if_true]
      omega
    · by_cases hops : s.state.cOps d = s.state.cOps c
      · rw [if_neg (hother d hops)] at hrefs
        simpa [hops, hdc, Ne.symm hdc] using hrefs
      · simpa [hops, hdc] using hrefs
  · by_cases ho : o = s.state.cOps c
    · subst ho
      simp only [Function.update_self, Option.some.injEq] at hd
      rw [← hd]
    · simp only [Function.update_of_ne ho] at hd
      exact h.own o d hd
  · by_cases hdc : d = c
    · subst hdc
      have hpos := (h.live d).1 hc
      simp only [hc, Function.update_self, true_iff]
      omega
    · simpa [hdc] using h.live d

theorem Inv.unprovide {s : Sys} (h : Inv reg s) {c : CacheId} (hc : s.state.live c = true) :
    Inv reg (step reg s (.unprovide c)) := by
  obtain ⟨o, hfor⟩ := lookupForObj_some (h.typed c hc)
  by_cases hmaj : s.state.coMajorCache o = some c
  · have hown := h.own o c hmaj
    simp only [step, unprovide_eq hfor hmaj]
    refine ⟨fun d => ?_, fun o' d hd => ?_, free_live h.live c, fun d hd => h.typed d (live_of_free hd)⟩
    · have hrefs := h.refs d
      by_cases hdc : d = c
      · subst hdc
        rw [if_pos (by rw [isMajor_iff, hown]; exact hmaj)] at hrefs
        simp only [isMajor_iff, hown, Function.update_self, reduceCtorEq, if_false]
        omega
      · by_cases hops : s.state.cOps d = o
        · simp only [isMajor_iff, hops, hmaj, Option.some.injEq, Ne.symm hdc, if_false] at hrefs
          simpa [hops, hdc] using hrefs
        · simpa [hops, hdc] using hrefs
    · by_cases ho : o' = o
      · subst ho
        simp at hd
      · simp only [Function.update_of_ne ho] at hd
        exact h.own o' d hd
  · simp only [step, nlCacheMngtUnprovide, hfor, if_neg hmaj]
    exact h

/-- **One call.** -/
theorem Inv.step {s : Sys} (h : Inv reg s) {call : Call} (hl : Legal reg s call) (hok : ProvidesFresh reg s call) :
    Inv reg (step reg s call) := by
  cases call with
  | alloc c o => exact h.alloc hl.1 hl.2
  | get c => exact h.get hl
  | put c => exact h.put hl
  | provide c => exact h.provide hl hok
  | unprovide c => exact h.unprovide hl
  | require name =>
    rw [Mngt.step, require_state]
    exact h
  | requireSafe name =>
    rcases @step_requireSafe reg s name with heq | ⟨o, c, ho, heq⟩
    · rw [heq]
      exact h
    · rw [heq]
      refine h.get ?_
      by_contra hdead
      exact (h.gone (Bool.eq_false_iff.2 hdead)).2.2 o ho

/-- a cache provided in place of another, in the set of another type or once more: some counter is wrong then -/
theorem Inv.provide_wrong {s : Sys} (h : Inv reg s) {c : CacheId} (hc : s.state.live c = true)
    (hnot : ¬ ProvidesFresh reg s (.provide c)) : ¬ CacheRefs (Mngt.step reg s (.provide c)) := by
  obtain ⟨o, hfor⟩ := lookupForObj_some (h.typed c hc)
  simp only [Mngt.step, provide_eq hfor]
  intro hafter
  have hrefs := h.refs c
  by_cases hown : o = s.state.cOps c
  · subst hown
    cases hmaj : s.state.coMajorCache (s.state.cOps c) with
    | none => exact hnot ⟨hfor, hmaj⟩
    | some d =>
      by_cases hdc : d = c
      · -- provided once more
        subst hdc
        have hafter := hafter d
        simp only [isMajor_iff, hmaj, if_true] at hrefs
        simp only [isMajor_iff, Function.update_self, if_true] at hafter
        omega
      · -- the cache that was there keeps its reference
        have hd := h.own _ d hmaj
        have hafter := hafter d
        have hrefs := h.refs d
        rw [if_pos (by rw [isMajor_iff, hd]; exact hmaj)] at hrefs
        simp only [isMajor_iff, hd, Function.update_self, Option.some.injEq, Ne.symm hdc, if_false,
          Function.update_of_ne hdc] at hafter
        omega
  · -- the set of another type gets it
    have hafter := hafter c
    simp only [isMajor_iff, Function.update_self, Function.update_of_ne (Ne.symm hown)] at hafter hrefs
    omega

/-! ## Runs -/

theorem run_concat (base : OpsId → ℤ) (calls : List Call) (call : Call) :
    run reg base (calls ++ [call]) = step reg (run reg base calls) call := List.foldl_concat ..

/-- the references of operations sets, in any run -/
theorem opsRefs_run (base : OpsId → ℤ) (calls : List Call) : OpsRefs base (run reg base calls).state := by
  induction calls using List.reverseRecOn with
  | nil => exact fun o => (add_zero _).symm
  | append_singleton calls call ih =>
    rw [run_concat]
    exact opsRefs_step ih call

/-- **Provisioning.** Along a run, the references of caches and of operations sets are right after every prefix exactly
when each cache is provided in its own operations set, while this has none. -/
theorem provisioning_iff (base : OpsId → ℤ) (calls : List Call)
    (hlegal : ∀ as call, as ++ [call] <+: calls → Legal reg (run reg base as) call) :
    (∀ as, as <+: calls → CacheRefs (run reg base as) ∧ OpsRefs base (run reg base as).state) ↔
      ∀ as call, as ++ [call] <+: calls → ProvidesFresh reg (run reg base as) call := by
  refine all_prefixes_iff_inv (I := fun as => Inv reg (run reg base as)) calls (start_inv base) ?_ ?_ ?_
  · intro as _ h
    exact ⟨h.refs, opsRefs_run base as⟩
  · intro as call hpre h hok
    rw [run_concat]
    exact h.step (hlegal as call hpre) hok
  · intro as call hpre h hnot
    rw [run_concat]
    have hl := hlegal as call hpre
    cases call with
    | provide c => exact fun hafter => h.provide_wrong hl hnot hafter.1
    | _ => exact absurd trivial hnot

/-- two types of the same objects, and one of others, as the library registers them -/
def sampleRegistry : Registry where
  cacheOps := [2, 1, 0]
  coName o := if o = 0 then "route/addr" else if o = 1 then "route/link" else "route/link/bridge"
  coObjOps o := if o = 0 then 0 else 1

/-- a cache of addresses is provided, used and taken back -/
def sampleCalls : List Call :=
  [.alloc 0 0, .provide 0, .requireSafe "route/addr", .put 0, .unprovide 0, .put 0]

theorem provisioning_iff_sample : CacheRefs (run sampleRegistry (fun _ => 0) sampleCalls) ∧
    OpsRefs (fun _ => 0) (run sampleRegistry (fun _ => 0) sampleCalls).state := by
  refine (provisioning_iff (fun _ => 0) sampleCalls ?_).2 ?_ sampleCalls List.prefix_rfl
  · refine each_cons ⟨rfl, by decide⟩ (each_cons rfl (each_cons trivial (each_cons ?_ (each_cons rfl
      (each_cons ?_ (each_nil _))))))
    · exact show 0 < 2 by decide
    · exact show 0 < 1 by decide
  · exact each_cons trivial (each_cons ⟨rfl, rfl⟩ (each_cons trivial (each_cons trivial (each_cons trivial
      (each_cons trivial (each_nil _))))))

/-- **A cache is replaced.** Two caches of addresses, provided one after the other: the first has the reference of its
user, is not the one that is provided, and counts two. -/
theorem provide_twice :
    (∀ as call, as ++ [call] <+: [Call.alloc 0 0, .alloc 1 0, .provide 0, .provide 1] →
      Legal sampleRegistry (run sampleRegistry (fun _ => 0) as) call) ∧
    ¬ CacheRefs (run sampleRegistry (fun _ => 0) [.alloc 0 0, .alloc 1 0, .provide 0, .provide 1]) := by
  constructor
  · exact each_cons ⟨rfl, by decide⟩ (each_cons ⟨rfl, by decide⟩ (each_cons rfl (each_cons rfl (each_nil _))))
  · intro h
    exact absurd (h 0) (by decide)

/-- a cache of links is provided as one of bridge ports, and not found under its own name -/
example : (run sampleRegistry (fun _ => 0) [.alloc 0 1, .provide 0]).state.coMajorCache 2 = some 0 ∧
    (nlCacheMngtRequire sampleRegistry (run sampleRegistry (fun _ => 0) [.alloc 0 1, .provide 0]).state "route/link").2 =
      none := by decide

end Libnl.Mngt
