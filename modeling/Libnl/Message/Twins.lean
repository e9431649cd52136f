/-
The same attributes in two messages.

What `nla_parse` makes of a stream depends on the attributes and not on where they stand: it refuses both streams or none,
with the same code, and finds the same attribute of each type in both.

- `SameIndex`: indexes that hold the same attributes. `folds_twin`: the loop of `nla_parse` keeps it.
- `Carried`: a message with a header and attributes behind it. `parse_twins`: `nlmsg_parse` of two of them.
-/
import Mathlib.Tactic
import Libnl.Core.Window
import Libnl.Message.Validate
import Libnl.Message.AttrStream

namespace Libnl.Twins

open Bytes Walk Msg Attr AttrWalk AttrStream Validate Window

variable [HostOrder]

/-! ## Two streams -/

/-- an attribute, in two places -/
structure Twin (buf buf' : Mem) (l : Leaf) (nla nla' : ℕ) : Prop where
  fst : At buf nla l
  snd : At buf' nla' l

/-- indexes that hold the same attributes of the list -/
def SameIndex (buf buf' : Mem) (ls : List Leaf) (tb tb' : Index) : Prop :=
  ∀ t, (tb t = none ∧ tb' t = none) ∨
    ∃ nla nla', tb t = some nla ∧ tb' t = some nla' ∧ ∃ l ∈ ls, l.type % 16384 = t ∧ Twin buf buf' l nla nla'

section

variable {buf buf' : Mem} {l : Leaf} {nla nla' : ℕ}

theorem Twin.type (h : Twin buf buf' l nla nla') : nlaType buf nla = nlaType buf' nla' := h.fst.type.trans h.snd.type.symm

theorem Twin.len (h : Twin buf buf' l nla nla') : nlaLen buf nla = nlaLen buf' nla' := h.fst.len.trans h.snd.len.symm

/-- the payloads show the same -/
theorem Twin.same (h : Twin buf buf' l nla nla') : Same buf buf' (nlaData nla) (nlaData nla') l.payload.length :=
  same_of_seg h.fst.data h.snd.data

/-- the payload as a memory of its own -/
theorem Twin.alone (h : Twin buf buf' l nla nla') : Same buf (memOf l.payload) (nlaData nla) 0 l.payload.length :=
  same_of_seg h.fst.data (seg_memOf l.payload)

/-- **Validation** looks at the type, the length and the payload -/
theorem Twin.validate (h : Twin buf buf' l nla nla') (maxtype : ℤ) (policy : ℕ → NlaPolicy) :
    validateNla buf nla maxtype policy = validateNla buf' nla' maxtype policy := by
  have hlen := h.len
  have hpay := h.fst.len
  simp only [validateNla, h.type, hlen]
  by_cases habove : maxtype < nlaType buf' nla'
  · rw [if_pos habove, if_pos habove]
  rw [if_neg habove, if_neg habove, policyMinlen_eq]
  by_cases hmin : toU32 (nlaLen buf' nla') < policyMinlen (policy (nlaType buf' nla'))
  · rw [if_pos hmin, if_pos hmin]
  rw [if_neg hmin, if_neg hmin]
  by_cases hmax : (policy (nlaType buf' nla')).maxlen ≠ 0 ∧
      ((policy (nlaType buf' nla')).maxlen : ℤ) < nlaLen buf' nla'
  · rw [if_pos hmax, if_pos hmax]
  rw [if_neg hmax, if_neg hmax]
  by_cases hstr : (policy (nlaType buf' nla')).type = .string
  · -- a string is not empty here, so that its last byte is one of the payload
    have hpos := policyMinlen_string hstr
    have hnonempty : l.payload.length ≠ 0 := by
      intro hzero
      rw [← hlen, hpay, hzero] at hmin
      exact hmin hpos
    have hlast := h.same (l.payload.length - 1) (by omega)
    rw [← hlen, hpay, Int.toNat_natCast, Nat.add_sub_assoc (by omega), Nat.add_sub_assoc (by omega), hlast]
  · rw [if_neg fun hboth => hstr hboth.1, if_neg fun hboth => hstr hboth.1]

end

/-- **The loop of `nla_parse`**, over two streams of the same attributes -/
theorem folds_twin {buf buf' : Mem} {maxtype : ℤ} {policy : ℕ → NlaPolicy} {all ls : List Leaf} {offs offs' : List ℕ}
    (hsub : ∀ l ∈ ls, l ∈ all) (h : List.Forall₂ (At buf) offs ls) (h' : List.Forall₂ (At buf') offs' ls) {tb tb' : Index}
    (htb : SameIndex buf buf' all tb tb') :
    (parseEnd (offs.foldlM (nlaParseBody buf maxtype (some policy)) tb)).1 =
        (parseEnd (offs'.foldlM (nlaParseBody buf' maxtype (some policy)) tb')).1 ∧
      SameIndex buf buf' all (parseEnd (offs.foldlM (nlaParseBody buf maxtype (some policy)) tb)).2
        (parseEnd (offs'.foldlM (nlaParseBody buf' maxtype (some policy)) tb')).2 := by
  induction h generalizing offs' tb tb' with
  | nil =>
    cases h'
    rw [List.foldlM_nil, List.foldlM_nil]
    exact ⟨rfl, htb⟩
  | @cons nla l offs ls hat _ ih =>
    cases h' with
    | @cons nla' _ offs' _ hat' hrest' =>
      have htwin : Twin buf buf' l nla nla' := ⟨hat, hat'⟩
      have hrest : ∀ l' ∈ ls, l' ∈ all := fun l' hl' => hsub l' (List.mem_cons_of_mem _ hl')
      rw [List.foldlM_cons, List.foldlM_cons]
      by_cases habove : maxtype < nlaType buf nla
      · have habove' : maxtype < nlaType buf' nla' := by rwa [← htwin.type]
        have hbody : nlaParseBody buf maxtype (some policy) tb nla = .ok tb := if_pos habove
        have hbody' : nlaParseBody buf' maxtype (some policy) tb' nla' = .ok tb' := if_pos habove'
        rw [hbody, hbody']
        exact ih hrest hrest' htb
      · have habove' : ¬ maxtype < nlaType buf' nla' := by rwa [← htwin.type]
        have hvalidate := htwin.validate maxtype policy
        by_cases herr : validateNla buf nla maxtype policy < 0
        · have herr' : validateNla buf' nla' maxtype policy < 0 := by rwa [← hvalidate]
          have hbody : nlaParseBody buf maxtype (some policy) tb nla = .error (validateNla buf nla maxtype policy, tb) :=
            (if_neg habove).trans (if_pos herr)
          have hbody' : nlaParseBody buf' maxtype (some policy) tb' nla' =
              .error (validateNla buf' nla' maxtype policy, tb') := (if_neg habove').trans (if_pos herr')
          rw [hbody, hbody', hvalidate]
          exact ⟨rfl, htb⟩
        · have herr' : ¬ validateNla buf' nla' maxtype policy < 0 := by rwa [← hvalidate]
          have hbody : nlaParseBody buf maxtype (some policy) tb nla =
              .ok (Function.update tb (nlaType buf nla) (some nla)) := (if_neg habove).trans (if_neg herr)
          have hbody' : nlaParseBody buf' maxtype (some policy) tb' nla' =
              .ok (Function.update tb' (nlaType buf nla) (some nla')) := by
            rw [htwin.type]
            exact (if_neg habove').trans (if_neg herr')
          rw [hbody, hbody']
          refine ih hrest hrest' fun t => ?_
          by_cases ht : t = nlaType buf nla
          · right
            rw [ht, Function.update_self, Function.update_self]
            exact ⟨nla, nla', rfl, rfl, l, hsub l List.mem_cons_self, hat.type.symm, htwin⟩
          · rw [Function.update_of_ne ht, Function.update_of_ne ht]
            exact htb t

/-! ## Two messages -/

/-- a message with so many bytes in front of the attributes -/
structure Carried (n : NlMsg) (front : ℕ) (ls : List Leaf) : Prop where
  len : n.nlmsgLen = 16 + front + (encLeaves ls).length
  seg : Seg n.buf (16 + front) (encLeaves ls)

/-- attributes in a message of a size that an integer can count -/
structure Stream (front : ℕ) (ls : List Leaf) : Prop where
  wf : ∀ l ∈ ls, l.WF
  aligned : front % 4 = 0
  size : 16 + front + (encLeaves ls).length < 2147483648

/-- the attributes that `nlmsg_parse` visits, and what it makes of them -/
theorem parse_visits {n : NlMsg} {front : ℕ} {ls : List Leaf} (hs : Stream front ls) (h : Carried n front ls)
    (maxtype : ℤ) (policy : ℕ → NlaPolicy) : ∃ offs, List.Forall₂ (At n.buf) offs ls ∧
      nlmsgParse n front maxtype (some policy) =
        parseEnd (offs.foldlM (nlaParseBody n.buf maxtype (some policy)) fun _ => none) := by
  have hsize := hs.size
  have hle := length_le_enc ls
  obtain ⟨offs, hoffs, hall⟩ := visits_leaves hs.wf h.seg (by omega) (n := (encLeaves ls).length + 1) (by omega)
  refine ⟨offs, hall, ?_⟩
  rw [nlmsgParse_front h.len hs.aligned hsize, parse_of_visits hoffs]
  rfl

/-- **Two messages with the same attributes**: `nlmsg_parse` returns the same and finds the same. -/
theorem parse_twins {n n' : NlMsg} {front front' : ℕ} {ls : List Leaf} (hs : Stream front ls) (hs' : Stream front' ls)
    (h : Carried n front ls) (h' : Carried n' front' ls) (maxtype : ℤ) (policy : ℕ → NlaPolicy) :
    (nlmsgParse n front maxtype (some policy)).1 = (nlmsgParse n' front' maxtype (some policy)).1 ∧
      SameIndex n.buf n'.buf ls (nlmsgParse n front maxtype (some policy)).2
        (nlmsgParse n' front' maxtype (some policy)).2 := by
  obtain ⟨offs, hoffs, hparse⟩ := parse_visits hs h maxtype policy
  obtain ⟨offs', hoffs', hparse'⟩ := parse_visits hs' h' maxtype policy
  rw [hparse, hparse']
  exact folds_twin (fun _ hl => hl) hoffs hoffs' fun t => Or.inl ⟨rfl, rfl⟩

/-- nothing is refused of attributes that pass -/
theorem parse_passes {n : NlMsg} {front : ℕ} {ls : List Leaf} (hs : Stream front ls) (h : Carried n front ls)
    {maxtype : ℤ} {policy : ℕ → NlaPolicy} (hok : ∀ l ∈ ls, ∀ pos, At n.buf pos l → 0 ≤ validateNla n.buf pos maxtype policy) :
    ¬ (nlmsgParse n front maxtype (some policy)).1 < 0 := by
  obtain ⟨offs, hoffs, hparse⟩ := parse_visits hs h maxtype policy
  rw [hparse, folds_agree]
  clear hparse hs h
  induction hoffs with
  | nil => exact lt_irrefl 0
  | @cons nla l offs ls hat _ ih =>
    have hpass : nlaValidateBody n.buf maxtype policy () nla = .ok () :=
      if_neg (not_lt.2 (hok l List.mem_cons_self nla hat))
    rw [List.foldlM_cons, hpass]
    exact ih fun l' hl' => hok l' (List.mem_cons_of_mem _ hl')

/-- where there is no attribute, nothing is found -/
theorem parse_stops {n : NlMsg} {front : ℕ} {maxtype : ℤ} {policy : ℕ → NlaPolicy} (hvalid : nlmsgValidHdr n front = true)
    (hstop : nlaOk n.buf (nlmsgAttrdata front) (nlmsgAttrlen n.nlmsgLen front) = false) :
    nlmsgParse n front maxtype (some policy) = (0, fun _ => none) := by
  have hvisits : visits (nlaOk n.buf) (nlaNext n.buf) ((nlmsgAttrlen n.nlmsgLen front).toNat + 1) (nlmsgAttrdata front)
      (nlmsgAttrlen n.nlmsgLen front) = some [] := by
    rw [visits, hstop]
    rfl
  rw [nlmsgParse, if_pos hvalid, parse_of_visits hvisits]
  rfl

end Libnl.Twins
