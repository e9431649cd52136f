/-
The number of templates of a policy (`lib/xfrm/sp.c`).

A policy keeps its templates in a list, and how many there are in a counter of 32 bits. Templates are added, which counts
them, and removed; a message brings a policy with all its templates. A clone starts as a copy of the structure, counter and
all, with a list of its own, and then gets its templates by the function that counts them. So it counts them twice.

- `spClone_list`: a clone has the templates of its source, in their order. `spClone_count`: how many it believes to have.
- `step_counted_iff`: which operations keep the counters right.
- `templates_counted_iff`: in every run.
- `cloned_template_counted_twice`: a policy with one template.
-/
import Mathlib.Tactic
import Libnl.Core.Prefix
import Libnl.Xfrm.PolicyCodec

namespace Libnl.Xfrm

open Bytes Msg AttrWalk Object Addr Prefix

/-! ## Operations -/

/-- `xfrmnl_sp_alloc` -/
def xfrmnlSpAlloc : SpVal where
  ceOps := 0
  ceMsgtype := 0
  ceMask := 0
  data :=
    { sel := ⟨⟨0, 0, []⟩, ⟨0, 0, []⟩, 0, 0, 0, 0, 0, 0, 0, 0, 0, 0⟩
      lft := ⟨0, 0, 0, 0, 0, 0, 0, 0⟩
      curlft := noLifetime
      priority := 0
      index := 0
      dir := 0
      action := 0
      flags := 0
      share := 0
      secCtx := none
      uptype := List.replicate 6 0
      nrUserTmpl := 0
      usertmplList := []
      mark := ⟨0, 0⟩ }

/-- `xfrmnl_sp_remove_usertemplate`, for the template at a place in the list -/
def xfrmnlSpRemoveUsertemplate (sp : SpVal) (k : ℕ) : SpVal :=
  if sp.ceMask &&& XFRM_SP_ATTR_TMPL ≠ 0 then
    { sp with data := { sp.data with nrUserTmpl := sp.data.nrUserTmpl - 1, usertmplList := sp.data.usertmplList.eraseIdx k } }
  else sp

/-- `nl_addr_clone` -/
def nlAddrClone (addr : NlAddr) : NlAddr := { nlAddrBuild addr.aFamily addr.aAddr with aPrefixlen := addr.aPrefixlen }

/-- `xfrmnl_user_tmpl_clone` -/
def xfrmnlUserTmplClone (utmpl : XfrmnlUserTmpl) : XfrmnlUserTmpl :=
  { utmpl with daddr := nlAddrClone utmpl.daddr, saddr := nlAddrClone utmpl.saddr }

/-- `xfrm_sp_clone`, of a copy whose list is made empty first; what the rest of the copy points to is cloned as well -/
def xfrmSpClone (dst src : SpVal) : SpVal :=
  src.data.usertmplList.foldl (fun dst utmpl => xfrmnlSpAddUsertemplate dst (xfrmnlUserTmplClone utmpl))
    { dst with data := { dst.data with usertmplList := [] } }

/-- `nl_object_clone`, of a policy: the structure is copied as it is -/
def nlObjectCloneSp (src : SpVal) : SpVal := xfrmSpClone src src

inductive SpOp where
  | alloc
  | parse (n : NlMsg)
  | add (i : ℕ) (utmpl : XfrmnlUserTmpl)
  /-- the template at a place in the list of the policy -/
  | remove (i k : ℕ)
  | clone (i : ℕ)

section
variable [HostOrder]

/-- policies are numbered in the order in which they came to be; calls for what is not there are not made -/
def spStep (s : List SpVal) : SpOp → List SpVal
  | .alloc => s ++ [xfrmnlSpAlloc]
  | .parse n =>
    match xfrmnlSpParse n with
    | .error _ => s
    | .ok sp => s ++ [sp]
  | .add i utmpl =>
    match s[i]? with
    | none => s
    | some sp => s.set i (xfrmnlSpAddUsertemplate sp utmpl)
  | .remove i k =>
    match s[i]? with
    | none => s
    | some sp => if k < sp.data.usertmplList.length then s.set i (xfrmnlSpRemoveUsertemplate sp k) else s
  | .clone i =>
    match s[i]? with
    | none => s
    | some sp => s ++ [nlObjectCloneSp sp]

def spRun (ops : List SpOp) : List SpVal := ops.foldl spStep []

end

/-! ## Counters -/

/-- the counter says how many templates there are -/
def SpCounted (sp : SpVal) : Prop := sp.data.nrUserTmpl.toNat = sp.data.usertmplList.length

/-- a policy with templates has the bit for them -/
def SpMarked (sp : SpVal) : Prop := sp.data.usertmplList ≠ [] → sp.ceMask &&& XFRM_SP_ATTR_TMPL ≠ 0

/-- the operation adds no template to as many as can be counted, and clones no policy with templates -/
def SpCountsOn (s : List SpVal) : SpOp → Prop
  | .add i _ => ∀ sp, s[i]? = some sp → sp.data.usertmplList.length + 1 < 2 ^ 32
  | .clone i => ∀ sp, s[i]? = some sp → sp.data.usertmplList = []
  | _ => True

/-- the bit is there after it is set -/
theorem tmplBit_set (m : BitVec 64) : (m ||| XFRM_SP_ATTR_TMPL) &&& XFRM_SP_ATTR_TMPL ≠ 0 := by
  rw [BitVec.and_or_distrib_right, BitVec.and_self]
  intro hzero
  have hbit := (BitVec.or_eq_zero_iff.1 hzero).2
  exact absurd hbit (by decide)

/-! ## Clones -/

/-- **A clone** has the templates of its source, in their order. -/
theorem spClone_list (sp : SpVal) : (nlObjectCloneSp sp).data.usertmplList = sp.data.usertmplList := by
  have h := congrArg (fun sp => sp.data.usertmplList) (foldl_addUsertemplate sp.data.usertmplList
    { sp with data := { sp.data with usertmplList := [] } })
  exact h

/-- it counts them on top of those of its source -/
theorem spClone_count (sp : SpVal) :
    (nlObjectCloneSp sp).data.nrUserTmpl = sp.data.nrUserTmpl + BitVec.ofNat 32 sp.data.usertmplList.length := by
  have h := congrArg (fun sp => sp.data.nrUserTmpl) (foldl_addUsertemplate sp.data.usertmplList
    { sp with data := { sp.data with usertmplList := [] } })
  exact h

theorem spClone_marked (sp : SpVal) : SpMarked (nlObjectCloneSp sp) := by
  intro hne
  rw [spClone_list] at hne
  have hmask := congrArg ObjVal.ceMask (foldl_addUsertemplate sp.data.usertmplList
    { sp with data := { sp.data with usertmplList := [] } })
  have hempty : sp.data.usertmplList.isEmpty = false := by
    rw [List.isEmpty_eq_false_iff]
    exact hne
  rw [hempty] at hmask
  have heq : (nlObjectCloneSp sp).ceMask = XFRM_SP_ATTR_TMPL ||| sp.ceMask := hmask
  rw [heq, BitVec.or_comm]
  exact tmplBit_set sp.ceMask

/-! ## One operation -/

theorem add_marked (sp : SpVal) (utmpl : XfrmnlUserTmpl) : SpMarked (xfrmnlSpAddUsertemplate sp utmpl) := by
  intro _
  exact tmplBit_set sp.ceMask

theorem remove_marked {sp : SpVal} (k : ℕ) (h : SpMarked sp) : SpMarked (xfrmnlSpRemoveUsertemplate sp k) := by
  unfold xfrmnlSpRemoveUsertemplate
  split_ifs with hbit
  · exact fun _ => hbit
  · exact h

/-- one more template -/
theorem add_counted_iff {sp : SpVal} (h : SpCounted sp) (utmpl : XfrmnlUserTmpl) :
    SpCounted (xfrmnlSpAddUsertemplate sp utmpl) ↔ sp.data.usertmplList.length + 1 < 2 ^ 32 := by
  unfold SpCounted at h ⊢
  simp only [xfrmnlSpAddUsertemplate, List.length_append, List.length_singleton]
  rw [BitVec.toNat_add, h]
  have hone : (1 : BitVec 32).toNat = 1 := rfl
  rw [hone]
  omega

/-- one template less -/
theorem remove_counted {sp : SpVal} {k : ℕ} (h : SpCounted sp) (hm : SpMarked sp) (hk : k < sp.data.usertmplList.length) :
    SpCounted (xfrmnlSpRemoveUsertemplate sp k) := by
  have hbit : sp.ceMask &&& XFRM_SP_ATTR_TMPL ≠ 0 := hm (List.ne_nil_of_length_pos (by omega))
  unfold SpCounted at h ⊢
  simp only [xfrmnlSpRemoveUsertemplate, if_pos hbit, List.length_eraseIdx_of_lt hk]
  have hone : (1 : BitVec 32).toNat = 1 := rfl
  rw [BitVec.toNat_sub_of_le (by rw [BitVec.le_def, h, hone]; omega), h, hone]

/-- **Clones** of counted policies are counted only without templates. -/
theorem clone_counted_iff {sp : SpVal} (h : SpCounted sp) : SpCounted (nlObjectCloneSp sp) ↔ sp.data.usertmplList = [] := by
  unfold SpCounted at h ⊢
  have hlt : sp.data.usertmplList.length < 2 ^ 32 := by
    rw [← h]
    exact sp.data.nrUserTmpl.isLt
  rw [spClone_list, spClone_count, BitVec.toNat_add, h, BitVec.toNat_ofNat, Nat.mod_eq_of_lt hlt, ← List.length_eq_zero_iff]
  omega

/-- all are counted after one more, if the new one is -/
theorem append_counted_iff {s : List SpVal} (h : ∀ sp ∈ s, SpCounted sp) (new : SpVal) :
    (∀ sp ∈ s ++ [new], SpCounted sp) ↔ SpCounted new := by
  constructor
  · intro hall
    exact hall new (List.mem_append_right s (List.mem_singleton_self new))
  · intro hnew sp hsp
    rcases List.mem_append.1 hsp with hold | hlast
    · exact h sp hold
    · obtain rfl := List.mem_singleton.1 hlast
      exact hnew

/-- all are counted after one is changed, if the changed one is -/
theorem set_counted_iff {s : List SpVal} (h : ∀ sp ∈ s, SpCounted sp) {i : ℕ} {old : SpVal} (hi : s[i]? = some old)
    (new : SpVal) : (∀ sp ∈ s.set i new, SpCounted sp) ↔ SpCounted new := by
  obtain ⟨hlt, -⟩ := List.getElem?_eq_some_iff.1 hi
  constructor
  · intro hall
    exact hall new (List.mem_set hlt new)
  · intro hnew sp hsp
    rcases List.mem_or_eq_of_mem_set hsp with hold | rfl
    · exact h sp hold
    · exact hnew

section
variable [HostOrder]

theorem userTmplsAt_lt (buf : Mem) (nla : ℕ) : (userTmplsAt buf nla).length < 2 ^ 32 := by
  simp only [userTmplsAt, List.length_map, List.length_range, numTmpls, toU32]
  omega

/-- **Parsed policies** are counted. -/
theorem parse_counted {n : NlMsg} {sp : SpVal} (h : xfrmnlSpParse n = .ok sp) : SpCounted sp ∧ SpMarked sp := by
  unfold xfrmnlSpParse at h
  dsimp only at h
  split_ifs at h with herr
  obtain rfl := Except.ok.inj h
  generalize htb : (nlmsgParse n 168 XFRMA_MAX (some spPolicy)).2 = tb
  have hlist : (spOf n.nlmsgType (spInfoAt n.buf (spInfoPos n)) (readSpAttrs n.buf tb)).data.usertmplList =
      ((tb XFRMA_TMPL).map (userTmplsAt n.buf)).getD [] := by
    rw [spOf_data]
    rfl
  have hlen : (((tb XFRMA_TMPL).map (userTmplsAt n.buf)).getD []).length < 2 ^ 32 := by
    cases tb XFRMA_TMPL with
    | none => exact Nat.two_pow_pos 32
    | some p => exact userTmplsAt_lt n.buf p
  constructor
  · unfold SpCounted
    rw [hlist, spOf_data]
    exact (congrArg BitVec.toNat (BitVec.zero_add _)).trans (Nat.mod_eq_of_lt hlen)
  · intro hne
    rw [hlist] at hne
    have hsome := has_spOf n.nlmsgType (spInfoAt n.buf (spInfoPos n)) (readSpAttrs n.buf tb) 0 XFRM_SP_ATTR_TMPL rfl
    have hempty : (((tb XFRMA_TMPL).map (userTmplsAt n.buf)).getD []).isEmpty = false := List.isEmpty_eq_false_iff.2 hne
    have hhas : has (spOf n.nlmsgType (spInfoAt n.buf (spInfoPos n)) (readSpAttrs n.buf tb)) XFRM_SP_ATTR_TMPL = true :=
      hsome.trans (congrArg not hempty)
    exact of_decide_eq_true hhas

/-- every operation leaves policies marked -/
theorem step_marked {s : List SpVal} (h : ∀ sp ∈ s, SpMarked sp) (op : SpOp) : ∀ sp ∈ spStep s op, SpMarked sp := by
  intro sp hsp
  cases op with
  | alloc =>
    rcases List.mem_append.1 hsp with hold | hnew
    · exact h sp hold
    · obtain rfl := List.mem_singleton.1 hnew
      exact fun hne => absurd rfl hne
  | parse n =>
    simp only [spStep] at hsp
    split at hsp
    · exact h sp hsp
    · rename_i new hparse
      rcases List.mem_append.1 hsp with hold | hnew
      · exact h sp hold
      · obtain rfl := List.mem_singleton.1 hnew
        exact (parse_counted hparse).2
  | add i utmpl =>
    simp only [spStep] at hsp
    split at hsp
    · exact h sp hsp
    · rename_i old _
      rcases List.mem_or_eq_of_mem_set hsp with hold | rfl
      · exact h sp hold
      · exact add_marked old utmpl
  | remove i k =>
    simp only [spStep] at hsp
    split at hsp
    · exact h sp hsp
    · rename_i old hold
      split_ifs at hsp with hk
      · rcases List.mem_or_eq_of_mem_set hsp with hmem | rfl
        · exact h sp hmem
        · exact remove_marked k (h old (List.mem_of_getElem? hold))
      · exact h sp hsp
  | clone i =>
    simp only [spStep] at hsp
    split at hsp
    · exact h sp hsp
    · rename_i old _
      rcases List.mem_append.1 hsp with hmem | hnew
      · exact h sp hmem
      · obtain rfl := List.mem_singleton.1 hnew
        exact spClone_marked old

/-- **One operation** on counted policies -/
theorem step_counted_iff {s : List SpVal} (h : ∀ sp ∈ s, SpCounted sp) (hm : ∀ sp ∈ s, SpMarked sp) (op : SpOp) :
    (∀ sp ∈ spStep s op, SpCounted sp) ↔ SpCountsOn s op := by
  cases op with
  | alloc =>
    refine iff_of_true ?_ trivial
    exact (append_counted_iff h _).2 rfl
  | parse n =>
    refine iff_of_true ?_ trivial
    simp only [spStep]
    split
    · exact h
    · rename_i new hparse
      exact (append_counted_iff h new).2 (parse_counted hparse).1
  | add i utmpl =>
    simp only [spStep, SpCountsOn]
    cases hi : s[i]? with
    | none => simpa using h
    | some old =>
      have hold := h old (List.mem_of_getElem? hi)
      simp only [Option.some.injEq, forall_eq']
      rw [set_counted_iff h hi, add_counted_iff hold]
  | remove i k =>
    refine iff_of_true ?_ trivial
    simp only [spStep]
    split
    · exact h
    · rename_i old hi
      have hmem := List.mem_of_getElem? hi
      split_ifs with hk
      · exact (set_counted_iff h hi _).2 (remove_counted (h old hmem) (hm old hmem) hk)
      · exact h
  | clone i =>
    simp only [spStep, SpCountsOn]
    cases hi : s[i]? with
    | none => simpa using h
    | some old =>
      have hold := h old (List.mem_of_getElem? hi)
      simp only [Option.some.injEq, forall_eq']
      rw [append_counted_iff h, clone_counted_iff hold]

/-! ## Runs -/

theorem spRun_append (as : List SpOp) (op : SpOp) : spRun (as ++ [op]) = spStep (spRun as) op := by
  rw [spRun, List.foldl_append]
  rfl

theorem run_marked (ops : List SpOp) : ∀ sp ∈ spRun ops, SpMarked sp := by
  -- by induction on the run, from its end
  induction ops using List.reverseRecOn with
  | nil =>
    intro sp hsp
    exact absurd hsp List.not_mem_nil
  | append_singleton ops op ih =>
    rw [spRun_append]
    exact step_marked ih op

/-- **Templates are counted**, all along a run and in all policies, as long as no policy with templates is cloned and none
has more than can be counted; clones have the templates of their sources at any rate. -/
theorem templates_counted_iff (ops : List SpOp) :
    ((∀ as, as <+: ops → ∀ sp ∈ spRun as, SpCounted sp) ∧
      ∀ as i, as ++ [.clone i] <+: ops → ∀ sp, (spRun as)[i]? = some sp →
        ∃ clone, spRun (as ++ [.clone i]) = spRun as ++ [clone] ∧ clone.data.usertmplList = sp.data.usertmplList) ↔
      ∀ as op, as ++ [op] <+: ops → SpCountsOn (spRun as) op := by
  have hcounted : (∀ as, as <+: ops → ∀ sp ∈ spRun as, SpCounted sp) ↔
      ∀ as op, as ++ [op] <+: ops → SpCountsOn (spRun as) op := by
    refine all_prefixes_iff (P := fun as => ∀ sp ∈ spRun as, SpCounted sp) (Q := fun as op => SpCountsOn (spRun as) op)
      ?_ ?_ ops
    · intro sp hsp
      exact absurd hsp List.not_mem_nil
    · intro as op has
      rw [spRun_append]
      exact step_counted_iff has (run_marked as) op
  have hclones : ∀ as i, as ++ [SpOp.clone i] <+: ops → ∀ sp, (spRun as)[i]? = some sp →
      ∃ clone, spRun (as ++ [.clone i]) = spRun as ++ [clone] ∧ clone.data.usertmplList = sp.data.usertmplList := by
    intro as i _ sp hi
    refine ⟨nlObjectCloneSp sp, ?_, spClone_list sp⟩
    rw [spRun_append]
    simp only [spStep, hi]
  rw [hcounted]
  exact and_iff_left hclones

end

/-- **Counted twice.** A policy gets one template and is cloned: the clone has one template and counts two. -/
theorem cloned_template_counted_twice : ¬ ∀ ops, ∀ sp ∈ @spRun ⟨false⟩ ops, SpCounted sp := by
  intro h
  let order : HostOrder := ⟨false⟩
  let sp := xfrmnlSpAddUsertemplate xfrmnlSpAlloc (sampleTmpl 2 [10, 0, 0, 1])
  have hmem : nlObjectCloneSp sp ∈ spRun [.alloc, .add 0 (sampleTmpl 2 [10, 0, 0, 1]), .clone 0] :=
    List.mem_cons_of_mem _ (List.mem_singleton_self _)
  have htwo : 2 = 1 := h _ _ hmem
  exact absurd htwo (by decide)

end Libnl.Xfrm
