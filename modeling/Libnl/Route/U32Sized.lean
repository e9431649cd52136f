/-
The size of a selector (`lib/route/cls/u32.c`).

The number of keys is written in the data that holds the keys. All setters keep the two together: a key that is added makes
room for itself, and is counted. The parser takes the data from a message as it is, and asks only for the fixed part.

- `step`, `run`: classifiers over a run of calls, messages and copies.
- `Safe`: what is read and written of the keys is inside the data.
- `parsed_done`: what the parser leaves. `selectors_sized_iff`: which runs are safe.
-/
import Mathlib.Tactic
import Libnl.Core.Prefix
import Libnl.Route.U32

namespace Libnl.U32

open Bytes Layout Msg Attr AttrWalk Fields Data Mask Prefix Actions

section

variable [HostOrder] {modules : List ActOps}

/-! ## Runs -/

variable (modules) in
/-- what happens to a classifier: a setter is called, it comes from a message with these options, or it is copied and the copy
is used -/
inductive Op where
  | set (s : Setter modules)
  | parse (opts : Option (List UInt8))
  | clone

/-- a message that is refused leaves the classifier that was there -/
def step (u : RtnlU32 modules) : Op modules → Option (RtnlU32 modules)
  | .set s => (s.apply u).map Prod.fst
  | .parse opts =>
    match u32MsgParser opts (freshU32 modules) with
    | .error _ => some u
    | .ok v => some v
  | .clone => some (u32Clone u)

/-- a run from a classifier that was just allocated -/
def run (ops : List (Op modules)) : Option (RtnlU32 modules) := ops.foldlM step (freshU32 modules)

theorem run_concat (ops : List (Op modules)) (op : Op modules) : run (ops ++ [op]) = (run ops).bind fun u => step u op := by
  unfold run
  rw [List.foldlM_append]
  cases List.foldlM step (freshU32 modules) ops with
  | none => rfl
  | some u =>
    show List.foldlM step u [op] = step u op
    rw [List.foldlM_cons]
    cases step u op with
    | none => rfl
    | some v => rfl

/-- the data holds the keys it says it has; each of them, and a new one, stays inside -/
structure Safe (u : RtnlU32 modules) : Prop where
  sized : ∀ sel ∈ u.cuSelector, SIZEOF_SEL + SIZEOF_KEY * nkeysOf sel ≤ sel.length
  get : ∀ index, (rtnlU32GetKey u index).isSome = true
  add : ∀ val mask off offmask, (rtnlU32AddKey u val mask off offmask).isSome = true

theorem Inv.safe {u : RtnlU32 modules} (h : Inv u) : Safe u where
  sized := h.sel
  get index := by
    unfold rtnlU32GetKey
    split_ifs with hbit
    · rfl
    · obtain ⟨sel, hsel⟩ := Option.isSome_iff_exists.1 (h.bit hbit)
      have hholds := h.sel sel hsel
      rw [hsel]
      show (sel[SEL_NKEYS]?.bind _).isSome = true
      rw [nkeys_read hholds.header, Option.bind_some]
      by_cases hrange : memOf sel SEL_NKEYS ≤ index
      · rw [if_pos hrange]
        rfl
      · have hlt : index.toNat < nkeysOf sel := not_le.1 hrange
        obtain ⟨key, hkey⟩ := Option.isSome_iff_exists.1 (loadKey_isSome ((keyOff_mono hlt).trans hholds))
        rw [if_neg hrange, hkey]
        rfl
  add val mask off offmask := by
    rcases add_key_done h val mask off offmask with ⟨-, hadd⟩ | ⟨sel, -, hadd⟩
    · rw [hadd]
      rfl
    · rw [hadd]
      rfl

/-! ## Messages -/

/-- the selector in the options, if they can be indexed -/
def selectorOf (opts : Option (List UInt8)) : Option (List UInt8) :=
  blob (optBuf opts) (tcaParse TCA_U32_MAX opts u32Policy).2 TCA_U32_SEL

variable (modules) in
/-- the parser accepts the options -/
def Accepted (opts : Option (List UInt8)) : Prop := ∃ v, u32MsgParser opts (freshU32 modules) = .ok v

variable (modules) in
/-- options that, if they are accepted, have a selector that holds as many keys as it says -/
def Honest (opts : Option (List UInt8)) : Prop :=
  Accepted modules opts → ∀ sel ∈ selectorOf opts, SIZEOF_SEL + SIZEOF_KEY * nkeysOf sel ≤ sel.length

omit [HostOrder] in
theorem parsedBits_separate (tb : Index) : separate ((parsedBits tb).map Prod.fst) = true := by
  show separate [U32_ATTR_DIVISOR, U32_ATTR_SELECTOR, U32_ATTR_MARK, U32_ATTR_HASH, U32_ATTR_CLASSID, U32_ATTR_LINK,
    U32_ATTR_ACTION, U32_ATTR_POLICE, U32_ATTR_PCNT, U32_ATTR_INDEV] = true
  decide

theorem parseBytes_conforms {buf : Mem} {len maxattr : ℤ} {policy : ℕ → NlaPolicy} (hlt : len < 2147483648)
    (hok : ¬ (parseBytes buf len maxattr policy).1 < 0) {t nla : ℕ} (hget : (parseBytes buf len maxattr policy).2 t = some nla) :
    Validate.Conforms buf nla (policy t) :=
  Validate.nlaParse_conforms hlt (Nat.lt_succ_self _) (not_lt.1 hok) hget

/-- attributes of the options that were indexed -/
theorem tcaParse_conforms {maxattr : ℤ} {opts : Option (List UInt8)} {policy : ℕ → NlaPolicy}
    (hok : ¬ (tcaParse maxattr opts policy).1 < 0) {t nla : ℕ} (hget : (tcaParse maxattr opts policy).2 t = some nla) :
    Validate.Conforms (optBuf opts) nla (policy t) := by
  cases opts with
  | none => cases hget
  | some bs =>
    have hlt : toInt32 bs.length < 2147483648 := by
      unfold toInt32
      split_ifs <;> omega
    rw [tcaParse_some] at hok hget
    exact parseBytes_conforms hlt hok hget

/-- a payload is as long as its policy wants it at least -/
theorem blob_length {opts : Option (List UInt8)} (hok : ¬ (tcaParse TCA_U32_MAX opts u32Policy).1 < 0) {t n : ℕ}
    (hmin : Validate.policyMinlen (u32Policy t) = n) :
    ∀ bs ∈ blob (optBuf opts) (tcaParse TCA_U32_MAX opts u32Policy).2 t, n ≤ bs.length := by
  intro bs hbs
  obtain ⟨nla, hnla, rfl⟩ := Option.map_eq_some_iff.1 hbs
  have hconf := (tcaParse_conforms hok hnla).min
  rw [hmin] at hconf
  rw [nlaBytes, readBytes_length]
  omega

/-- **What the parser leaves** of the options -/
theorem parsed_done {opts : Option (List UInt8)} {v : RtnlU32 modules} (h : u32MsgParser opts (freshU32 modules) = .ok v) :
    v.cuSelector = selectorOf opts ∧ (v.cuMask &&& U32_ATTR_SELECTOR ≠ 0 → v.cuSelector.isSome = true) ∧
      ∀ mark ∈ v.cuMark, SIZEOF_MARK ≤ mark.length := by
  unfold u32MsgParser at h
  dsimp only at h
  by_cases herr : (tcaParse TCA_U32_MAX opts u32Policy).1 < 0
  · rw [if_pos herr] at h
    cases h
  rw [if_neg herr] at h
  cases hacts : parseActs (optBuf opts) (freshU32 modules).cuAct ((tcaParse TCA_U32_MAX opts u32Policy).2 TCA_U32_ACT) with
  | error err =>
    rw [hacts] at h
    cases h
  | ok acts =>
    rw [hacts] at h
    dsimp only at h
    split_ifs at h with hpcnt
    obtain rfl := Except.ok.inj h
    refine ⟨taken_selector _ _ _, fun hbit => ?_, fun mark hmark => ?_⟩
    · rw [taken_mask] at hbit
      have hthere := (maskOf_has (parsedBits_separate _) (List.mem_cons_of_mem _ List.mem_cons_self)).1 hbit
      obtain ⟨nla, hnla⟩ := Option.isSome_iff_exists.1 hthere
      rw [taken_selector, blob, hnla]
      rfl
    · rw [taken_mark] at hmark
      exact blob_length herr (by decide) mark hmark

/-! ## All runs -/

/-- **One step** from a classifier whose data is as it should be -/
theorem Inv.step {u : RtnlU32 modules} (h : Inv u) {op : Op modules} (hop : ∀ opts, op = .parse opts → Honest modules opts) :
    ∃ v, step u op = some v ∧ Inv v := by
  cases op with
  | set s =>
    obtain ⟨v, err, happly, hv⟩ := setter_done h s
    exact ⟨v, by rw [U32.step, happly, Option.map_some], hv⟩
  | clone =>
    refine ⟨u32Clone u, rfl, ?_, ?_, ?_⟩
    · intro sel hsel
      obtain ⟨src, hsrc, rfl⟩ := Option.map_eq_some_iff.1 hsel
      rw [nlDataClone_eq]
      exact h.sel src hsrc
    · intro hbit
      rw [u32Clone, Option.isSome_map]
      exact h.bit hbit
    · intro mark hmark
      obtain ⟨src, hsrc, rfl⟩ := Option.map_eq_some_iff.1 hmark
      rw [nlDataClone_eq]
      exact h.mark src hsrc
  | parse opts =>
    have hhonest := hop opts rfl
    cases hparse : u32MsgParser opts (freshU32 modules) with
    | error err => exact ⟨u, by rw [U32.step, hparse], h⟩
    | ok v =>
      obtain ⟨hsel, hbit, hmark⟩ := parsed_done hparse
      refine ⟨v, by rw [U32.step, hparse], ?_, hbit, hmark⟩
      rw [hsel]
      exact hhonest ⟨v, hparse⟩

/-- **Sizes of selectors.** All along a run every classifier is safe if and only if no message that the parser accepts has a
selector with fewer keys than it says. -/
theorem selectors_sized_iff (ops : List (Op modules)) :
    (∀ as, as <+: ops → ∃ u, run as = some u ∧ Safe u) ↔ ∀ opts, Op.parse opts ∈ ops → Honest modules opts := by
  have heach : (∀ as op, as ++ [op] <+: ops → ∀ opts, op = .parse opts → Honest modules opts) ↔
      ∀ opts, Op.parse opts ∈ ops → Honest modules opts := by
    refine each_iff_mem.trans ⟨fun h opts hmem => h _ hmem opts rfl, fun h op hmem opts hop => ?_⟩
    rw [hop] at hmem
    exact h opts hmem
  rw [← heach]
  refine all_prefixes_iff_inv (I := fun as => ∃ u, run as = some u ∧ Inv u) ops ⟨_, rfl, inv_fresh⟩ ?_ ?_ ?_
  · rintro as - ⟨u, hrun, hinv⟩
    exact ⟨u, hrun, hinv.safe⟩
  · rintro as op - ⟨u, hrun, hinv⟩ hop
    obtain ⟨v, hstep, hv⟩ := hinv.step hop
    exact ⟨v, by rw [run_concat, hrun]; exact hstep, hv⟩
  · rintro as op - ⟨u, hrun, hinv⟩ hnot ⟨v, hrun', hsafe⟩
    refine hnot fun opts hop ⟨w, hparse⟩ => ?_
    subst hop
    rw [run_concat, hrun] at hrun'
    have hstep : step u (.parse opts) = some v := hrun'
    rw [step, hparse] at hstep
    obtain rfl := Option.some.inj hstep
    rw [← (parsed_done hparse).1]
    exact hsafe.sized

end

/-- options with a selector of 16 bytes that says it has five keys -/
def shortOptions : List UInt8 := [20, 0, 5, 0, 0, 0, 5, 0, 0, 0, 0, 0, 0, 0, 0, 0, 0, 0, 0, 0]

/-- **The parser takes them**, and reading the first key leaves the data, as adding one does. -/
theorem short_selector_is_taken :
    (@run ⟨false⟩ [] [@Op.parse ⟨false⟩ [] (some shortOptions)]).map (fun u => @rtnlU32GetKey ⟨false⟩ [] u 0) = some none ∧
    (@run ⟨false⟩ [] [@Op.parse ⟨false⟩ [] (some shortOptions)]).map
      (fun u => (@rtnlU32AddKey ⟨false⟩ [] u 0 0 0 0).isSome) = some false ∧
    ¬ ∀ as, as <+: [@Op.parse ⟨false⟩ [] (some shortOptions)] → ∃ u, @run ⟨false⟩ [] as = some u ∧ @Safe ⟨false⟩ [] u := by
  let order : HostOrder := ⟨false⟩
  have hget : (@run order [] [Op.parse (some shortOptions)]).map (fun u => rtnlU32GetKey u 0) = some none := by
    decide
  refine ⟨hget, by decide, fun hall => ?_⟩
  obtain ⟨u, hrun, hsafe⟩ := hall _ (List.prefix_refl _)
  rw [hrun, Option.map_some, Option.some.injEq] at hget
  have hthere := hsafe.get 0
  rw [hget] at hthere
  cases hthere

end Libnl.U32
