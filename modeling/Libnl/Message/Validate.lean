/-
What a policy guarantees.

`nla_parse` and `nla_validate` walk a stream with the same check for each attribute. The one leaves attributes of types
above the maximum out before it checks, the other has the check itself let them pass, so both return the same code. What is
in the index after a successful parse has passed the check of its type, whichever attributes it replaced.

Readers take integers out of such attributes without a look at the length. The check asks for the length of an integer where
the table `nla_attr_minlen` has it, which is for the unsigned types only.

- `parse_validate_agree`: the two functions agree, and the entries of the index conform to the policy.
- `getters_safe_iff`: the integers of a policy are safe to read just if none of them is of a type the table misses.
- `short_integer_accepted`: an empty attribute passes as a signed integer of 32 bits.
-/
import Mathlib.Tactic
import Libnl.Message.Fields

namespace Libnl.Validate

open Bytes Walk Msg Attr AttrWalk AttrTree AttrStream Fields

variable [HostOrder]

/-! ## Validation of a stream -/

/-- loop body of `nla_validate` -/
def nlaValidateBody (buf : Mem) (maxtype : ℤ) (policy : ℕ → NlaPolicy) (_ : Unit) (nla : ℕ) : Except ℤ Unit :=
  let err := validateNla buf nla maxtype policy
  if err < 0 then .error err else .ok ()

/-- `nla_validate`: the return code, if the loop ends within `n` iterations -/
def nlaValidate (n : ℕ) (buf : Mem) (head : ℕ) (len maxtype : ℤ) (policy : ℕ → NlaPolicy) : Option ℤ :=
  (nlaForEachAttr buf (nlaValidateBody buf maxtype policy) n () head len).map fun
    | .error err => err
    | .ok _ => 0

/-- the length that a policy asks for at least -/
def policyMinlen (pt : NlaPolicy) : ℕ := if pt.minlen ≠ 0 then pt.minlen else nlaAttrMinlen pt.type

/-- the attribute has a payload as the policy wants it -/
structure Conforms (buf : Mem) (nla : ℕ) (pt : NlaPolicy) : Prop where
  min : (policyMinlen pt : ℤ) ≤ nlaLen buf nla
  max : pt.maxlen ≠ 0 → nlaLen buf nla ≤ pt.maxlen
  nul : pt.type = .string → 0 < nlaLen buf nla ∧ buf (nlaData nla + (nlaLen buf nla).toNat - 1) = 0

omit [HostOrder] in
/-- the minimum as the check computes it -/
theorem policyMinlen_eq (pt : NlaPolicy) :
    (if pt.minlen ≠ 0 then pt.minlen else if pt.type ≠ .unspec then nlaAttrMinlen pt.type else 0) = policyMinlen pt := by
  unfold policyMinlen
  by_cases hmin : pt.minlen ≠ 0
  · rw [if_pos hmin, if_pos hmin]
  · rw [if_neg hmin, if_neg hmin]
    by_cases htype : pt.type = .unspec
    · rw [htype]
      rfl
    · rw [if_pos htype]

omit [HostOrder] in
/-- a string has a byte at least -/
theorem policyMinlen_string {pt : NlaPolicy} (h : pt.type = .string) : 0 < policyMinlen pt := by
  unfold policyMinlen
  by_cases hmin : pt.minlen ≠ 0
  · rw [if_pos hmin]
    exact Nat.pos_of_ne_zero hmin
  · rw [if_neg hmin, h]
    decide

/-- **The check**, passed -/
theorem conforms_of_validate {buf : Mem} {nla : ℕ} {maxtype : ℤ} {policy : ℕ → NlaPolicy}
    (hlen : 4 ≤ nlaLenField buf nla) (htype : (nlaType buf nla : ℤ) ≤ maxtype)
    (hok : ¬ validateNla buf nla maxtype policy < 0) : Conforms buf nla (policy (nlaType buf nla)) := by
  have hlt : nlaLenField buf nla < 65536 := getU16_lt buf nla
  have hnat : (toU32 (nlaLen buf nla) : ℤ) = nlaLen buf nla := by
    refine toU32_of_mem ?_ ?_
    · unfold nlaLen NLA_HDRLEN
      omega
    · unfold nlaLen
      omega
  rw [validateNla, if_neg (not_lt.2 htype)] at hok
  simp only [policyMinlen_eq] at hok
  by_cases hshort : toU32 (nlaLen buf nla) < policyMinlen (policy (nlaType buf nla))
  · rw [if_pos hshort] at hok
    exact absurd (by decide) hok
  · rw [if_neg hshort] at hok
    have hmin : (policyMinlen (policy (nlaType buf nla)) : ℤ) ≤ nlaLen buf nla := by omega
    by_cases hlong : (policy (nlaType buf nla)).maxlen ≠ 0 ∧ ((policy (nlaType buf nla)).maxlen : ℤ) < nlaLen buf nla
    · rw [if_pos hlong] at hok
      exact absurd (by decide) hok
    · rw [if_neg hlong] at hok
      refine ⟨hmin, fun hmax => ?_, fun hstr => ⟨?_, ?_⟩⟩
      · exact not_lt.1 fun hgt => hlong ⟨hmax, hgt⟩
      · have hpos := policyMinlen_string hstr
        omega
      · by_contra hnul
        rw [if_pos ⟨hstr, hnul⟩] at hok
        exact hok (by decide)

/-! ## The two loops -/

/-- what `nla_parse` returns, and the index it leaves, by how its loop ends -/
def parseEnd : Except (ℤ × Index) Index → ℤ × Index
  | .error e => e
  | .ok tb => (0, tb)

/-- what `nla_validate` returns -/
def validateEnd : Except ℤ Unit → ℤ
  | .error err => err
  | .ok _ => 0

section

variable {buf : Mem} {maxtype : ℤ} {policy : ℕ → NlaPolicy} {offs : List ℕ}

theorem parse_of_visits {n head : ℕ} {len : ℤ} (hv : visits (nlaOk buf) (nlaNext buf) n head len = some offs) :
    nlaParse n buf maxtype head len (some policy) =
      some (parseEnd (offs.foldlM (nlaParseBody buf maxtype (some policy)) fun _ => none)) := by
  rw [nlaParse, nlaForEachAttr, forEach_eq_foldlM _ _ _ n _ head len offs hv]
  rfl

theorem validate_of_visits {n head : ℕ} {len : ℤ} (hv : visits (nlaOk buf) (nlaNext buf) n head len = some offs) :
    nlaValidate n buf head len maxtype policy = some (validateEnd (offs.foldlM (nlaValidateBody buf maxtype policy) ())) := by
  rw [nlaValidate, nlaForEachAttr, forEach_eq_foldlM _ _ _ n _ head len offs hv]
  rfl

/-- types above the maximum pass the check -/
theorem validate_above {nla : ℕ} (h : maxtype < nlaType buf nla) : validateNla buf nla maxtype policy = 0 := by
  rw [validateNla, if_pos h]

/-- **The loops agree**, from any index on. -/
theorem folds_agree (tb : Index) : (parseEnd (offs.foldlM (nlaParseBody buf maxtype (some policy)) tb)).1 =
    validateEnd (offs.foldlM (nlaValidateBody buf maxtype policy) ()) := by
  induction offs generalizing tb with
  | nil => rfl
  | cons o offs ih =>
    rw [List.foldlM_cons, List.foldlM_cons]
    by_cases habove : maxtype < nlaType buf o
    · have hparse : nlaParseBody buf maxtype (some policy) tb o = .ok tb := if_pos habove
      have hvalid : nlaValidateBody buf maxtype policy () o = .ok () := by
        rw [nlaValidateBody, validate_above habove]
        rfl
      rw [hparse, hvalid]
      exact ih tb
    · by_cases hneg : validateNla buf o maxtype policy < 0
      · have hparse : nlaParseBody buf maxtype (some policy) tb o = .error (validateNla buf o maxtype policy, tb) := by
          rw [nlaParseBody, if_neg habove]
          exact if_pos hneg
        have hvalid : nlaValidateBody buf maxtype policy () o = .error (validateNla buf o maxtype policy) := if_pos hneg
        rw [hparse, hvalid]
        rfl
      · have hparse : nlaParseBody buf maxtype (some policy) tb o = .ok (Function.update tb (nlaType buf o) (some o)) := by
          rw [nlaParseBody, if_neg habove]
          exact if_neg hneg
        have hvalid : nlaValidateBody buf maxtype policy () o = .ok () := if_neg hneg
        rw [hparse, hvalid]
        exact ih _

end

/-- an entry of the index: an attribute of the type, which conforms to the policy -/
structure Entry (buf : Mem) (maxtype : ℤ) (policy : ℕ → NlaPolicy) (t nla : ℕ) : Prop where
  type : nlaType buf nla = t
  le : (t : ℤ) ≤ maxtype
  conforms : Conforms buf nla (policy t)

/-- **One attribute** leaves only such entries in the index. -/
theorem body_entries {buf : Mem} {maxtype : ℤ} {policy : ℕ → NlaPolicy} {tb tb' : Index} {o : ℕ}
    (hlen : 4 ≤ nlaLenField buf o) (hb : nlaParseBody buf maxtype (some policy) tb o = .ok tb')
    (htb : ∀ t nla, tb t = some nla → Entry buf maxtype policy t nla) : ∀ t nla, tb' t = some nla → Entry buf maxtype policy t nla := by
  rw [nlaParseBody] at hb
  by_cases habove : maxtype < nlaType buf o
  · rw [if_pos habove] at hb
    cases hb
    exact htb
  · rw [if_neg habove] at hb
    by_cases hneg : validateNla buf o maxtype policy < 0
    · have herror := hb.symm.trans (if_pos hneg)
      cases herror
    · have hupdate := hb.symm.trans (if_neg hneg)
      cases hupdate
      intro t nla hget
      by_cases ht : t = nlaType buf o
      · rw [ht, Function.update_self] at hget
        cases hget
        subst ht
        exact ⟨rfl, not_lt.1 habove, conforms_of_validate hlen (not_lt.1 habove) hneg⟩
      · rw [Function.update_of_ne ht] at hget
        exact htb t nla hget

/-- **All attributes** -/
theorem fold_entries {buf : Mem} {maxtype : ℤ} {policy : ℕ → NlaPolicy} {offs : List ℕ} {tb tb' : Index}
    (hlen : ∀ o ∈ offs, 4 ≤ nlaLenField buf o) (h : offs.foldlM (nlaParseBody buf maxtype (some policy)) tb = .ok tb')
    (htb : ∀ t nla, tb t = some nla → Entry buf maxtype policy t nla) : ∀ t nla, tb' t = some nla → Entry buf maxtype policy t nla := by
  induction offs generalizing tb with
  | nil =>
    cases h
    exact htb
  | cons o offs ih =>
    rw [List.foldlM_cons] at h
    cases hb : nlaParseBody buf maxtype (some policy) tb o with
    | error e =>
      rw [hb] at h
      cases h
    | ok tb1 =>
      rw [hb] at h
      exact ih (fun x hx => hlen x (List.mem_cons_of_mem o hx)) h (body_entries (hlen o List.mem_cons_self) hb htb)

/-- the entries after a parse that succeeded -/
theorem parseEnd_entries {buf : Mem} {maxtype : ℤ} {policy : ℕ → NlaPolicy} {offs : List ℕ}
    (hlen : ∀ o ∈ offs, 4 ≤ nlaLenField buf o)
    (hok : 0 ≤ (parseEnd (offs.foldlM (nlaParseBody buf maxtype (some policy)) fun _ => none)).1) (t nla : ℕ)
    (hget : (parseEnd (offs.foldlM (nlaParseBody buf maxtype (some policy)) fun _ => none)).2 t = some nla) :
    Entry buf maxtype policy t nla := by
  cases hfold : offs.foldlM (nlaParseBody buf maxtype (some policy)) fun _ => none with
  | error e =>
    rw [hfold] at hok
    exact absurd (parse_error_neg buf maxtype (some policy) offs _ e hfold) (not_lt.2 hok)
  | ok tb =>
    rw [hfold] at hget
    exact fold_entries hlen hfold nofun t nla hget

/-- **The attributes of a stream** that was parsed -/
theorem nlaParse_conforms {buf : Mem} {maxtype : ℤ} {policy : ℕ → NlaPolicy} {n head : ℕ} {len : ℤ} (hlt : len < 2147483648)
    (hn : len.toNat < n) (hok : 0 ≤ ((nlaParse n buf maxtype head len (some policy)).getD (0, fun _ => none)).1) {t nla : ℕ}
    (hget : ((nlaParse n buf maxtype head len (some policy)).getD (0, fun _ => none)).2 t = some nla) :
    Conforms buf nla (policy t) := by
  obtain ⟨offs, hvisits, hlaws⟩ := (nlaStream buf).walk head len hlt
  rw [parse_of_visits (hvisits n hn), Option.getD_some] at hok hget
  exact (parseEnd_entries (fun o ho => (hlaws.inside o ho).2.1) hok t nla hget).conforms

/-- **The attributes of a message** that was parsed -/
theorem nlmsgParse_conforms {m : NlMsg} {hdrlen maxtype : ℤ} {policy : ℕ → NlaPolicy}
    (hok : 0 ≤ (nlmsgParse m hdrlen maxtype (some policy)).1) {t nla : ℕ}
    (hget : (nlmsgParse m hdrlen maxtype (some policy)).2 t = some nla) : Conforms m.buf nla (policy t) := by
  have hlt : nlmsgAttrlen m.nlmsgLen hdrlen < 2147483648 := by
    unfold nlmsgAttrlen
    generalize nlmsgDatalen m.nlmsgLen - alignInt hdrlen = x
    unfold toInt32
    split_ifs <;> omega
  unfold nlmsgParse at hok hget
  by_cases hhdr : nlmsgValidHdr m hdrlen = true
  · rw [if_pos hhdr] at hok hget
    exact nlaParse_conforms hlt (Nat.lt_succ_self _) hok hget
  · rw [if_neg hhdr] at hget
    cases hget

/-- **The attributes of a nest** that was parsed -/
theorem nlaParseNested_conforms {buf : Mem} {maxtype : ℤ} {attr : ℕ} {policy : ℕ → NlaPolicy}
    (hok : 0 ≤ (nlaParseNested buf maxtype attr (some policy)).1) {t nla : ℕ}
    (hget : (nlaParseNested buf maxtype attr (some policy)).2 t = some nla) : Conforms buf nla (policy t) := by
  have hlt : nlaLen buf attr < 2147483648 := by
    have hfield : nlaLenField buf attr < 65536 := getU16_lt buf attr
    unfold nlaLen
    omega
  rw [nlaParseNested] at hok hget
  exact nlaParse_conforms hlt (Nat.lt_succ_self _) hok hget

/-- **Parser and validator agree.** For every stream, every maximum type and every policy both loops end and return the same
code; if that is no error, each attribute in the index has a payload as the policy of its type wants it. -/
theorem parse_validate_agree (buf : Mem) (head : ℕ) (len : Int32) (maxtype : ℤ) (policy : ℕ → NlaPolicy) :
    ∃ err tb, (∀ n, len.toInt.toNat < n → nlaParse n buf maxtype head len.toInt (some policy) = some (err, tb) ∧
        nlaValidate n buf head len.toInt maxtype policy = some err) ∧
      (0 ≤ err → ∀ t nla, tb t = some nla → nlaType buf nla = t ∧ Conforms buf nla (policy t)) := by
  have hlt : len.toInt < 2147483648 := by simpa using len.toInt_lt
  obtain ⟨offs, hvisits, hlaws⟩ := (nlaStream buf).walk head len.toInt hlt
  refine ⟨_, _, fun n hn => ⟨parse_of_visits (hvisits n hn), ?_⟩, fun hok t nla hget => ?_⟩
  · exact (validate_of_visits (hvisits n hn)).trans (congrArg some (folds_agree fun _ => none).symm)
  · have hentry := parseEnd_entries (fun o ho => (hlaws.inside o ho).2.1) hok t nla hget
    exact ⟨hentry.type, hentry.conforms⟩

/-! ## Integers -/

/-- bytes that the getter of a type reads, for the types of integers -/
def getterWidth : NlaDataType → Option ℕ
  | .u8 | .s8 => some 1
  | .u16 | .s16 => some 2
  | .u32 | .s32 => some 4
  | .u64 | .s64 | .msecs => some 8
  | _ => none

def nlaGetS8 (buf : Mem) (nla : ℕ) : ℤ := (nlaGetU8 buf nla).toInt

def nlaGetS16 (buf : Mem) (nla : ℕ) : ℤ := (nlaGetU16 buf nla).toInt

def nlaGetS32 (buf : Mem) (nla : ℕ) : ℤ := (nlaGetU32 buf nla).toInt

/-- `nla_get_u64` has a look at the length -/
def nlaGetU64 (buf : Mem) (nla : ℕ) : BitVec 64 :=
  if 8 ≤ nlaLen buf nla then BitVec.ofNat 64 (getU64 buf (nlaData nla)) else 0

def nlaGetS64 (buf : Mem) (nla : ℕ) : ℤ := (nlaGetU64 buf nla).toInt

def nlaGetMsecs (buf : Mem) (nla : ℕ) : BitVec 64 := nlaGetU64 buf nla

/-- the integer that the getter of the type returns -/
def getter (buf : Mem) (nla : ℕ) : NlaDataType → ℤ
  | .u8 => (nlaGetU8 buf nla).toNat
  | .u16 => (nlaGetU16 buf nla).toNat
  | .u32 => (nlaGetU32 buf nla).toNat
  | .u64 => (nlaGetU64 buf nla).toNat
  | .s8 => nlaGetS8 buf nla
  | .s16 => nlaGetS16 buf nla
  | .s32 => nlaGetS32 buf nla
  | .s64 => nlaGetS64 buf nla
  | .msecs => (nlaGetMsecs buf nla).toNat
  | _ => 0

/-- the same attribute in two memories -/
def SameAttr (buf buf' : Mem) (nla : ℕ) : Prop := ∀ i, nla ≤ i → i < nla + nlaLenField buf nla → buf' i = buf i

section

variable {buf buf' : Mem} {nla : ℕ}

theorem SameAttr.byte (h : SameAttr buf buf' nla) {w : ℕ} (hlen : (w : ℤ) ≤ nlaLen buf nla) {i : ℕ} (hi : i < w) :
    buf' (nlaData nla + i) = buf (nlaData nla + i) := by
  unfold nlaLen at hlen
  unfold nlaData NLA_HDRLEN at *
  exact h _ (by omega) (by omega)

theorem SameAttr.u16 (h : SameAttr buf buf' nla) {w : ℕ} (hlen : (w : ℤ) ≤ nlaLen buf nla) {i : ℕ} (hi : i + 2 ≤ w) :
    getU16 buf' (nlaData nla + i) = getU16 buf (nlaData nla + i) := by
  unfold getU16
  rw [add_assoc, h.byte hlen (by omega), h.byte hlen (by omega)]

theorem SameAttr.u32 (h : SameAttr buf buf' nla) {w : ℕ} (hlen : (w : ℤ) ≤ nlaLen buf nla) {i : ℕ} (hi : i + 4 ≤ w) :
    getU32 buf' (nlaData nla + i) = getU32 buf (nlaData nla + i) := by
  rw [getU32_eq, getU32_eq, add_assoc, h.u16 hlen (by omega), h.u16 hlen (by omega)]

theorem SameAttr.u64 (h : SameAttr buf buf' nla) (hlen : 8 ≤ nlaLen buf nla) :
    getU64 buf' (nlaData nla) = getU64 buf (nlaData nla) := by
  have hfirst := h.u32 (w := 8) hlen (i := 0) (by decide)
  have hsecond := h.u32 (w := 8) hlen (i := 4) (by decide)
  rw [add_zero] at hfirst
  unfold getU64
  rw [hfirst, hsecond]

/-- the header is the same, too -/
theorem SameAttr.nlaLen (h : SameAttr buf buf' nla) (hlen : 0 < nlaLen buf nla) : nlaLen buf' nla = nlaLen buf nla := by
  unfold Attr.nlaLen NLA_HDRLEN at hlen
  have hfield : nlaLenField buf' nla = nlaLenField buf nla := by
    unfold nlaLenField getU16 at *
    rw [h nla le_rfl (by unfold nlaLenField getU16; omega), h (nla + 1) (by omega) (by unfold nlaLenField getU16; omega)]
  rw [Attr.nlaLen, hfield, Attr.nlaLen]

/-- **A getter reads the payload only**, if that has the length of the integer. -/
theorem getter_reads_payload {ty : NlaDataType} {w : ℕ} (hw : getterWidth ty = some w) (hlen : (w : ℤ) ≤ nlaLen buf nla)
    (h : SameAttr buf buf' nla) : getter buf' nla ty = getter buf nla ty := by
  have h8 : ∀ w : ℕ, 1 ≤ w → (w : ℤ) ≤ Attr.nlaLen buf nla → nlaGetU8 buf' nla = nlaGetU8 buf nla := by
    intro w hpos hle
    have hbyte := h.byte hle (i := 0) (by omega)
    rw [add_zero] at hbyte
    rw [nlaGetU8, nlaGetU8, hbyte]
  have h16 : ∀ w : ℕ, 2 ≤ w → (w : ℤ) ≤ Attr.nlaLen buf nla → nlaGetU16 buf' nla = nlaGetU16 buf nla := by
    intro w hpos hle
    have hread := h.u16 hle (i := 0) (by omega)
    rw [add_zero] at hread
    rw [nlaGetU16, nlaGetU16, hread]
  have h32 : ∀ w : ℕ, 4 ≤ w → (w : ℤ) ≤ Attr.nlaLen buf nla → nlaGetU32 buf' nla = nlaGetU32 buf nla := by
    intro w hpos hle
    have hread := h.u32 hle (i := 0) (by omega)
    rw [add_zero] at hread
    rw [nlaGetU32, nlaGetU32, hread]
  have h64 : (8 : ℤ) ≤ Attr.nlaLen buf nla → nlaGetU64 buf' nla = nlaGetU64 buf nla := by
    intro hle
    rw [nlaGetU64, nlaGetU64, h.nlaLen (by omega), h.u64 hle]
  cases ty with
  | u8 => cases hw; simp only [getter, h8 1 le_rfl hlen]
  | s8 => cases hw; simp only [getter, nlaGetS8, h8 1 le_rfl hlen]
  | u16 => cases hw; simp only [getter, h16 2 le_rfl hlen]
  | s16 => cases hw; simp only [getter, nlaGetS16, h16 2 le_rfl hlen]
  | u32 => cases hw; simp only [getter, h32 4 le_rfl hlen]
  | s32 => cases hw; simp only [getter, nlaGetS32, h32 4 le_rfl hlen]
  | u64 => cases hw; simp only [getter, h64 hlen]
  | s64 => cases hw; simp only [getter, nlaGetS64, h64 hlen]
  | msecs => cases hw; simp only [getter, nlaGetMsecs, h64 hlen]
  | unspec | string | flag | nested | nestedCompat | nulString | binary => cases hw

end

/-- the types of integers that are missing in the table of minimal lengths -/
def unlisted : List NlaDataType := [.msecs, .s8, .s16, .s32, .s64]

omit [HostOrder] in
/-- **The table**, where it has the type -/
theorem minlen_of_listed {ty : NlaDataType} {w : ℕ} (hw : getterWidth ty = some w) (hlisted : ty ∉ unlisted) :
    nlaAttrMinlen ty = w := by
  cases ty with
  | u8 | u16 | u32 | u64 => exact Option.some.inj hw
  | s8 | s16 | s32 | s64 | msecs => exact absurd (by decide) hlisted
  | unspec | string | flag | nested | nestedCompat | nulString | binary => cases hw

omit [HostOrder] in
/-- **The table**, where it has not -/
theorem minlen_of_unlisted {ty : NlaDataType} (h : ty ∈ unlisted) :
    nlaAttrMinlen ty = 0 ∧ ty ≠ .string ∧ ∃ w, getterWidth ty = some w ∧ 0 < w := by
  cases ty with
  | u8 | u16 | u32 | u64 | unspec | string | flag | nested | nestedCompat | nulString | binary =>
    exact absurd h (by decide)
  | s8 => exact ⟨rfl, by decide, 1, rfl, by decide⟩
  | s16 => exact ⟨rfl, by decide, 2, rfl, by decide⟩
  | s32 => exact ⟨rfl, by decide, 4, rfl, by decide⟩
  | s64 | msecs => exact ⟨rfl, by decide, 8, rfl, by decide⟩

/-- after every successful parse with the policy, the integers in the index are there in full, and the getters read nothing
beyond them -/
def GettersSafe (maxtype : ℤ) (policy : ℕ → NlaPolicy) : Prop :=
  ∀ (buf : Mem) (head : ℕ) (len : Int32) (n : ℕ) (tb : Index), len.toInt.toNat < n →
    nlaParse n buf maxtype head len.toInt (some policy) = some (0, tb) →
    ∀ t nla w, tb t = some nla → (policy t).minlen = 0 → getterWidth (policy t).type = some w →
      (w : ℤ) ≤ nlaLen buf nla ∧
        ∀ buf', SameAttr buf buf' nla → getter buf' nla (policy t).type = getter buf nla (policy t).type

/-- an empty attribute of the type -/
def emptyAttr (t : ℕ) : List UInt8 := encLeaves [⟨t, []⟩]

/-- **An empty attribute passes** where neither the policy nor the table asks for a length. -/
theorem empty_accepted {maxtype t : ℕ} {policy : ℕ → NlaPolicy} (ht : t < 16384) (hmax : t ≤ maxtype)
    (hmin : policyMinlen (policy t) = 0) (hstr : (policy t).type ≠ .string) :
    ∃ tb pos, nlaParse 5 (memOf (emptyAttr t)) maxtype 0 4 (some policy) = some (0, tb) ∧ tb t = some pos ∧
      nlaLen (memOf (emptyAttr t)) pos = 0 := by
  have hmod : t % 16384 = t := Nat.mod_eq_of_lt ht
  have hlength : (emptyAttr t).length = 4 := by
    rw [emptyAttr, encLeaves_cons, encLeaves_nil, List.append_nil, encLeaf_length, List.length_nil]
    decide
  have hwf : ∀ l ∈ [Leaf.mk t []], l.WF := by
    intro l hl
    obtain rfl := List.mem_singleton.1 hl
    exact ⟨by simp only; omega, by simp⟩
  have haccepts : Accepts (policy (t % 16384)) [] := by
    rw [hmod]
    exact ⟨by rw [policyMinlen_eq, hmin]; exact Nat.zero_le _, Or.inr (Nat.zero_le _), fun h => absurd h hstr⟩
  have hok : ∀ l ∈ [Leaf.mk t []], ∀ pos, At (memOf (emptyAttr t)) pos l →
      0 ≤ validateNla (memOf (emptyAttr t)) pos maxtype policy := by
    intro l hl pos hat
    obtain rfl := List.mem_singleton.1 hl
    rw [validate_accepts hat maxtype (by simp) haccepts]
  obtain ⟨tb, hparse, hidx⟩ := parse_leaves (n := 5) hwf hok (seg_memOf (emptyAttr t)) (by rw [← emptyAttr, hlength]; decide)
    (Nat.lt_of_sub_eq_succ rfl)
  rw [← emptyAttr, hlength] at hparse
  have hentry := hidx t hmax
  have hlast : lastOf [Leaf.mk t []] t = some ⟨t, []⟩ := by
    have hsnoc := lastOf_snoc [] ⟨t, []⟩ t
    rw [List.nil_append, if_pos hmod] at hsnoc
    exact hsnoc
  rw [hlast] at hentry
  obtain ⟨pos, hpos, hat⟩ := hentry
  exact ⟨tb, pos, hparse, hpos, hat.len⟩

/-- **When the getters are safe.** Every stream that passes the policy has its integers in full just if no type up to the
maximum is, without a minimum of its own, one of those the table misses. -/
theorem getters_safe_iff (maxtype : ℤ) (policy : ℕ → NlaPolicy) : GettersSafe maxtype policy ↔
    ∀ t : ℕ, t < 16384 → (t : ℤ) ≤ maxtype → (policy t).minlen = 0 → (policy t).type ∉ unlisted := by
  constructor
  · intro hsafe t ht hmax hmin hunlisted
    obtain ⟨hzero, hstr, w, hw, hpos⟩ := minlen_of_unlisted hunlisted
    have hnone : policyMinlen (policy t) = 0 := by
      rw [policyMinlen, if_neg (not_not.2 hmin), hzero]
    obtain ⟨k, rfl⟩ := Int.eq_ofNat_of_zero_le ((Int.natCast_nonneg t).trans hmax)
    obtain ⟨tb, pos, hparse, hget, hlen⟩ := empty_accepted ht (Int.ofNat_le.1 hmax) hnone hstr
    have hfull := (hsafe _ 0 4 5 tb (by decide) hparse t pos w hget hmin hw).1
    rw [hlen] at hfull
    omega
  · intro hlisted buf head len n tb hn hparse t nla w hget hmin hw
    have hlt : len.toInt < 2147483648 := by simpa using len.toInt_lt
    obtain ⟨offs, hvisits, hlaws⟩ := (nlaStream buf).walk head len.toInt hlt
    have hend := Option.some.inj ((parse_of_visits (hvisits n hn)).symm.trans hparse)
    have hentry := parseEnd_entries (fun o ho => (hlaws.inside o ho).2.1) (by rw [hend]) t nla
      (by rw [hend]; exact hget)
    -- the type of an attribute has fourteen bits
    have ht : t < 16384 := by
      rw [← hentry.type, nlaType]
      exact Nat.mod_lt _ (by decide)
    have hwidth := minlen_of_listed hw (hlisted t ht hentry.le hmin)
    have hlen : (w : ℤ) ≤ nlaLen buf nla := by
      have hle := hentry.conforms.min
      rwa [policyMinlen, if_neg (not_not.2 hmin), hwidth] at hle
    exact ⟨hlen, fun buf' hsame => getter_reads_payload hw hlen hsame⟩

omit [HostOrder] in
/-- **An integer that is not there.** An empty attribute of type one passes a policy that has 32-bit signed integers; the
getter reads four bytes. -/
theorem short_integer_accepted : ∃ tb pos,
    @nlaParse ⟨false⟩ 5 (memOf (@emptyAttr ⟨false⟩ 1)) (1 : ℕ) 0 4 (some fun _ => ⟨.s32, 0, 0⟩) = some (0, tb) ∧
      tb 1 = some pos ∧ @nlaLen ⟨false⟩ (memOf (@emptyAttr ⟨false⟩ 1)) pos = 0 ∧ getterWidth .s32 = some 4 := by
  let order : HostOrder := ⟨false⟩
  obtain ⟨tb, pos, hparse, hget, hlen⟩ := @empty_accepted order 1 1 (fun _ => ⟨.s32, 0, 0⟩) (by decide)
    (by decide) rfl (by decide)
  exact ⟨tb, pos, hparse, hget, hlen, rfl⟩

end Libnl.Validate
