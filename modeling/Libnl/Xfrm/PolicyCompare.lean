/-
What a comparison of policies says (`xfrm_sp_compare` in `lib/xfrm/sp.c`).

Twelve attributes are compared one by one; of the templates, their number. Then each template of the one policy is compared
with each of the other, whether that is asked for or not, and a difference sets the lowest bit, which is that of the selector.
So a policy with two different templates differs from itself.

- `xfrmSpCompare_some`: the answer, as a list of tests and the templates.
- `policy_compare_iff`: where the answer is right.
- `differs_from_itself`: a policy with two templates.
-/
import Mathlib.Tactic
import Libnl.Cache.Diff
import Libnl.Xfrm.PolicyCodec
import Libnl.Xfrm.Selector

namespace Libnl.Xfrm

open Bytes Fields Object Diff Addr Mask

/-! ## Comparing -/

/-- `xfrmnl_user_tmpl_cmp`; whether a template is optional is not looked at -/
def xfrmnlUserTmplCmp (a b : XfrmnlUserTmpl) : Bool :=
  nlAddrCmpPrefix (some a.daddr) (some b.daddr) || decide (a.spi ≠ b.spi) ||
    (decide (a.proto ≠ 0) && decide (a.proto ≠ b.proto)) || nlAddrCmpPrefix (some a.saddr) (some b.saddr) ||
    decide (a.family ≠ b.family) || decide (a.reqid ≠ b.reqid) || decide (a.mode ≠ b.mode) || decide (a.share ≠ b.share) ||
    decide (a.aalgos ≠ b.aalgos) || decide (a.ealgos ≠ b.ealgos) || decide (a.calgos ≠ b.calgos)

/-- two security contexts; the string is taken to end -/
def userSecCtxDiffer (a b : XfrmnlUserSecCtx) : Bool :=
  decide (a.len ≠ b.len) || decide (a.exttype ≠ b.exttype) || decide (a.ctxAlg ≠ b.ctxAlg) || decide (a.ctxDoi ≠ b.ctxDoi) ||
    decide (a.ctxLen ≠ b.ctxLen) || decide (cstr a.ctx ≠ cstr b.ctx)

/-- the tests before that of the templates -/
def spFirstTests (a b : SpVal) : List Test :=
  let x := a.data
  let y := b.data
  [(XFRM_SP_ATTR_SEL, some (xfrmnlSelCmp x.sel y.sel)), (XFRM_SP_ATTR_LTIME_CFG, some (decide (x.lft ≠ y.lft))),
    ( XFRM_SP_ATTR_PRIO, some (decide (x.priority ≠ y.priority))), (XFRM_SP_ATTR_INDEX, some (decide (x.index ≠ y.index))),
    (XFRM_SP_ATTR_DIR, some (decide (x.dir ≠ y.dir))), (XFRM_SP_ATTR_ACTION, some (decide (x.action ≠ y.action))),
    (XFRM_SP_ATTR_FLAGS, some (decide (x.flags ≠ y.flags))), (XFRM_SP_ATTR_SHARE, some (decide (x.share ≠ y.share))),
    (XFRM_SP_ATTR_SECCTX, x.secCtx.bind fun c => y.secCtx.map (userSecCtxDiffer c)),
    (XFRM_SP_ATTR_POLTYPE, some (decide (x.uptype.head? ≠ y.uptype.head?)))]

/-- the test of the templates: how many there are -/
def spCountTest (a b : SpVal) : Test := (XFRM_SP_ATTR_TMPL, some (decide (a.data.nrUserTmpl ≠ b.data.nrUserTmpl)))

def spMarkTest (a b : SpVal) : Test := (XFRM_SP_ATTR_MARK, some (decide (a.data.mark ≠ b.data.mark)))

/-- the templates, each with each -/
def tmplsDiff (as bs : List XfrmnlUserTmpl) (diff : BitVec 64) : BitVec 64 :=
  bs.foldl (fun diff tmplB => as.foldl (fun diff tmplA => diff ||| if xfrmnlUserTmplCmp tmplA tmplB then 1 else 0) diff) diff

/-- `xfrm_sp_compare`; `none` where it follows a null pointer -/
def xfrmSpCompare (a b : SpVal) (attrs : BitVec 64) (_ : ℕ) : Option (BitVec 64) :=
  (diffAll attrs a b (spFirstTests a b ++ [spCountTest a b, spMarkTest a b])).map
    (tmplsDiff a.data.usertmplList b.data.usertmplList)

/-! ## What the answer should be -/

/-- the compared attributes but for the templates agree -/
def AttrsAgree (a b : SpVal) : Prop := ∀ t ∈ spFirstTests a b ++ [spMarkTest a b], Agree a b t

/-- the two agree in all attributes, and have as many templates, which pass for each other one by one -/
structure SameSp (a b : SpVal) : Prop where
  attrs : AttrsAgree a b
  tmpl : Carries a XFRM_SP_ATTR_TMPL ↔ Carries b XFRM_SP_ATTR_TMPL
  tmpls : List.Forall₂ (fun x y => xfrmnlUserTmplCmp x y = false) a.data.usertmplList b.data.usertmplList

/-- the answer has only bits that were asked for, and asked for everything, it is zero if the two are the same -/
structure SpCmpRight (a b : SpVal) : Prop where
  confined : ∀ attrs flags, ∃ diff, xfrmSpCompare a b attrs flags = some diff ∧ diff &&& attrs = diff
  exact : xfrmSpCompare a b (BitVec.allOnes 64) 0 = some 0 ↔ SameSp a b

/-! ## The answer -/

/-- every template of the first list passes for every one of the second -/
def AllPass (as bs : List XfrmnlUserTmpl) : Prop := ∀ x ∈ as, ∀ y ∈ bs, xfrmnlUserTmplCmp x y = false

theorem row_eq_zero_iff (as : List XfrmnlUserTmpl) (y : XfrmnlUserTmpl) (diff : BitVec 64) :
    as.foldl (fun diff x => diff ||| if xfrmnlUserTmplCmp x y then 1 else 0) diff = 0 ↔
      diff = 0 ∧ ∀ x ∈ as, xfrmnlUserTmplCmp x y = false := by
  induction as generalizing diff with
  | nil => exact ⟨fun h => ⟨h, fun x hx => absurd hx List.not_mem_nil⟩, fun h => h.1⟩
  | cons x as ih =>
    have hor : diff ||| (if xfrmnlUserTmplCmp x y then 1 else 0) = 0 ↔ diff = 0 ∧ xfrmnlUserTmplCmp x y = false := by
      cases xfrmnlUserTmplCmp x y with
      | true => exact BitVec.or_eq_zero_iff.trans (and_congr_right fun _ => iff_of_false (by decide) (by decide))
      | false => exact BitVec.or_eq_zero_iff.trans (and_congr_right fun _ => iff_of_true rfl rfl)
    rw [List.foldl_cons, ih, hor, List.forall_mem_cons, and_assoc]

/-- **The templates** leave no trace just if all pass for all. -/
theorem tmplsDiff_eq_zero_iff (as bs : List XfrmnlUserTmpl) (diff : BitVec 64) :
    tmplsDiff as bs diff = 0 ↔ diff = 0 ∧ AllPass as bs := by
  induction bs generalizing diff with
  | nil => exact ⟨fun h => ⟨h, fun _ _ y hy => absurd hy List.not_mem_nil⟩, fun h => h.1⟩
  | cons y bs ih =>
    have hstep : tmplsDiff as (y :: bs) diff = tmplsDiff as bs
        (as.foldl (fun diff x => diff ||| if xfrmnlUserTmplCmp x y then 1 else 0) diff) := rfl
    rw [hstep, ih, row_eq_zero_iff, and_assoc]
    refine and_congr_right fun _ => ⟨fun h x hx => ?_, fun h => ⟨fun x hx => ?_, fun x hx => ?_⟩⟩
    · rw [List.forall_mem_cons]
      exact ⟨h.1 x hx, h.2 x hx⟩
    · exact h x hx y List.mem_cons_self
    · exact fun z hz => h x hx z (List.mem_cons_of_mem y hz)

/-- templates that pass do not change the answer -/
theorem tmplsDiff_pass {as bs : List XfrmnlUserTmpl} (h : AllPass as bs) (diff : BitVec 64) : tmplsDiff as bs diff = diff := by
  have hrow : ∀ y, (∀ x ∈ as, xfrmnlUserTmplCmp x y = false) → ∀ diff : BitVec 64,
      as.foldl (fun diff x => diff ||| if xfrmnlUserTmplCmp x y then 1 else 0) diff = diff := by
    intro y hy diff
    induction as generalizing diff with
    | nil => rfl
    | cons x as ih =>
      have hor : diff ||| (if xfrmnlUserTmplCmp x y then 1 else 0) = diff := by
        rw [hy x List.mem_cons_self]
        exact BitVec.or_zero
      rw [List.foldl_cons, hor]
      exact ih (fun z hz => h z (List.mem_cons_of_mem x hz)) (fun z hz => hy z (List.mem_cons_of_mem x hz)) diff
  induction bs generalizing diff with
  | nil => rfl
  | cons y bs ih =>
    have hstep : tmplsDiff as (y :: bs) diff = tmplsDiff as bs
        (as.foldl (fun diff x => diff ||| if xfrmnlUserTmplCmp x y then 1 else 0) diff) := rfl
    rw [hstep, hrow y (fun x hx => h x hx y List.mem_cons_self)]
    exact ih (fun x hx z hz => h x hx z (List.mem_cons_of_mem y hz)) diff

theorem spTests_bits (a b : SpVal) : singleBits ((spFirstTests a b ++ [spCountTest a b, spMarkTest a b]).map Prod.fst) = true := by
  have hbits : (spFirstTests a b ++ [spCountTest a b, spMarkTest a b]).map Prod.fst =
      [XFRM_SP_ATTR_SEL, XFRM_SP_ATTR_LTIME_CFG, XFRM_SP_ATTR_PRIO, XFRM_SP_ATTR_INDEX, XFRM_SP_ATTR_DIR, XFRM_SP_ATTR_ACTION,
        XFRM_SP_ATTR_FLAGS, XFRM_SP_ATTR_SHARE, XFRM_SP_ATTR_SECCTX, XFRM_SP_ATTR_POLTYPE, XFRM_SP_ATTR_TMPL,
        XFRM_SP_ATTR_MARK] := rfl
  rw [hbits]
  rfl

theorem agree_count_iff (a b : SpVal) : Agree a b (spCountTest a b) ↔
    (Carries a XFRM_SP_ATTR_TMPL ↔ Carries b XFRM_SP_ATTR_TMPL) ∧
      (Carries a XFRM_SP_ATTR_TMPL → a.data.nrUserTmpl = b.data.nrUserTmpl) := by
  have hdiffer : (spCountTest a b).2 = some false ↔ a.data.nrUserTmpl = b.data.nrUserTmpl := by
    rw [spCountTest, Option.some_inj, decide_eq_false_iff_not, not_not]
  constructor
  · intro h
    exact ⟨h.carry, fun hc => hdiffer.1 (h.same hc)⟩
  · rintro ⟨hcarry, hsame⟩
    exact ⟨hcarry, fun hc => hdiffer.2 (hsame hc)⟩

section
variable {a b : SpVal}

/-- where all templates pass, the answer is zero just if the attributes agree and the numbers of templates do -/
theorem xfrmSpCompare_eq_zero_iff (hpass : AllPass a.data.usertmplList b.data.usertmplList) (flags : ℕ) :
    xfrmSpCompare a b (BitVec.allOnes 64) flags = some 0 ↔ AttrsAgree a b ∧
      (Carries a XFRM_SP_ATTR_TMPL ↔ Carries b XFRM_SP_ATTR_TMPL) ∧
      (Carries a XFRM_SP_ATTR_TMPL → a.data.nrUserTmpl = b.data.nrUserTmpl) := by
  have hid : xfrmSpCompare a b (BitVec.allOnes 64) flags =
      diffAll (BitVec.allOnes 64) a b (spFirstTests a b ++ [spCountTest a b, spMarkTest a b]) := by
    have hmap : tmplsDiff a.data.usertmplList b.data.usertmplList = id := funext (tmplsDiff_pass hpass)
    rw [xfrmSpCompare, hmap, Option.map_id, id]
  rw [hid, diffAll_eq_zero_iff (spTests_bits a b), ← agree_count_iff, AttrsAgree]
  simp only [List.forall_mem_append, List.forall_mem_cons, List.not_mem_nil, false_implies, implies_true, and_true]
  tauto

/-- where all templates pass, lists of one length pass one by one -/
theorem forall₂_iff_length {as bs : List XfrmnlUserTmpl} (h : AllPass as bs) :
    List.Forall₂ (fun x y => xfrmnlUserTmplCmp x y = false) as bs ↔ as.length = bs.length := by
  rw [List.forall₂_iff_zip]
  refine and_iff_left ?_
  intro x y hxy
  exact h x (List.of_mem_zip hxy).1 y (List.of_mem_zip hxy).2

/-! ## Where it is right -/

/-- all templates pass for all; security contexts are there where both carry one; and if nothing else differs, the counters
differ just if the lists have different lengths -/
structure SpCmpWhen (a b : SpVal) : Prop where
  pass : AllPass a.data.usertmplList b.data.usertmplList
  secCtx : Carries a XFRM_SP_ATTR_SECCTX → Carries b XFRM_SP_ATTR_SECCTX →
    a.data.secCtx.isSome = true ∧ b.data.secCtx.isSome = true
  count : AttrsAgree a b → (Carries a XFRM_SP_ATTR_TMPL ↔ Carries b XFRM_SP_ATTR_TMPL) →
    ((Carries a XFRM_SP_ATTR_TMPL → a.data.nrUserTmpl = b.data.nrUserTmpl) ↔
      a.data.usertmplList.length = b.data.usertmplList.length)

/-- only the test of the security contexts follows a pointer -/
theorem tests_there_iff (attrs : BitVec 64) :
    (∀ t ∈ spFirstTests a b ++ [spCountTest a b, spMarkTest a b], attrs &&& t.1 ≠ 0 → Carries a t.1 → Carries b t.1 →
      t.2.isSome = true) ↔
    (attrs &&& XFRM_SP_ATTR_SECCTX ≠ 0 → Carries a XFRM_SP_ATTR_SECCTX → Carries b XFRM_SP_ATTR_SECCTX →
      a.data.secCtx.isSome = true ∧ b.data.secCtx.isSome = true) := by
  have hctx : (a.data.secCtx.bind fun c => b.data.secCtx.map (userSecCtxDiffer c)).isSome = true ↔
      a.data.secCtx.isSome = true ∧ b.data.secCtx.isSome = true := by
    cases a.data.secCtx with
    | none => simp
    | some c => simp
  simp only [spFirstTests, spCountTest, spMarkTest, List.cons_append, List.nil_append, List.forall_mem_cons, Option.isSome_some,
    implies_true, true_and, List.not_mem_nil, false_implies, and_true, hctx]

/-- **Comparing policies** -/
theorem policy_compare_iff (a b : SpVal) : SpCmpRight a b ↔ SpCmpWhen a b := by
  constructor
  · intro h
    -- asked for nothing, the answer is what is said of the templates
    have hpass : AllPass a.data.usertmplList b.data.usertmplList := by
      obtain ⟨diff, hdiff, hconfined⟩ := h.confined 0 0
      obtain ⟨d, -, rfl⟩ := Option.map_eq_some_iff.1 hdiff
      have hzero : tmplsDiff a.data.usertmplList b.data.usertmplList d = 0 := by
        rw [← hconfined]
        exact BitVec.and_zero
      exact ((tmplsDiff_eq_zero_iff _ _ _).1 hzero).2
    refine ⟨hpass, ?_, ?_⟩
    · obtain ⟨diff, hdiff, -⟩ := h.confined (BitVec.allOnes 64) 0
      obtain ⟨d, hd, -⟩ := Option.map_eq_some_iff.1 hdiff
      have hthere := (diffAll_isSome_iff (spTests_bits a b) (BitVec.allOnes 64)).1 (by rw [hd]; rfl)
      exact (tests_there_iff _).1 hthere (by decide)
    · intro hattrs htmpl
      have hexact := h.exact
      rw [xfrmSpCompare_eq_zero_iff hpass, and_iff_right hattrs, and_iff_right htmpl] at hexact
      rw [hexact, ← forall₂_iff_length hpass]
      exact ⟨fun hs => hs.tmpls, fun hs => ⟨hattrs, htmpl, hs⟩⟩
  · intro h
    refine ⟨?_, ?_⟩
    · intro attrs flags
      have hthere := (diffAll_isSome_iff (spTests_bits a b) attrs).2 ((tests_there_iff attrs).2 fun _ => h.secCtx)
      obtain ⟨d, hd⟩ := Option.isSome_iff_exists.1 hthere
      refine ⟨d, ?_, diffAll_confined (spTests_bits a b) hd⟩
      rw [xfrmSpCompare, hd, Option.map_some, tmplsDiff_pass h.pass]
    · rw [xfrmSpCompare_eq_zero_iff h.pass]
      constructor
      · rintro ⟨hattrs, htmpl, hcount⟩
        exact ⟨hattrs, htmpl, (forall₂_iff_length h.pass).2 ((h.count hattrs htmpl).1 hcount)⟩
      · rintro ⟨hattrs, htmpl, htmpls⟩
        exact ⟨hattrs, htmpl, (h.count hattrs htmpl).2 ((forall₂_iff_length h.pass).1 htmpls)⟩

end

/-- a policy with two templates that are not the same -/
def twoTmpls : SpVal := spOf XFRM_MSG_NEWPOLICY sampleInfo ⟨none, none, some sampleTmpls, none⟩

/-- **It differs from itself**, also where nothing is asked. -/
theorem differs_from_itself : xfrmSpCompare twoTmpls twoTmpls (BitVec.allOnes 64) 0 = some XFRM_SP_ATTR_SEL ∧
    xfrmSpCompare twoTmpls twoTmpls 0 0 = some XFRM_SP_ATTR_SEL ∧ ¬ SpCmpRight twoTmpls twoTmpls := by
  have hnothing : xfrmSpCompare twoTmpls twoTmpls 0 0 = some XFRM_SP_ATTR_SEL := by rfl
  refine ⟨by rfl, hnothing, fun h => ?_⟩
  obtain ⟨diff, hdiff, hconfined⟩ := h.confined 0 0
  rw [hnothing] at hdiff
  obtain rfl := Option.some.inj hdiff
  revert hconfined
  decide

end Libnl.Xfrm
