/-
Readers of attributes read nothing else.

The functions that walk and parse a stream of attributes look at bytes of the stream only: in two memories with the same
stream they do the same. What they leave in the index are attributes of the stream, so what is read out of these later is
in the stream as well.

- `visits_same`, `nlaParse_same`: the walk and the parser.
- `nlaParse_inside`, `nlmsgParse_inside`: the attributes in an index.
- `SameAttr.bytes`, `SameAttr.nested`: what is read out of an attribute.
-/
import Mathlib.Tactic
import Libnl.Message.Validate

namespace Libnl.Validate

open Bytes Walk Msg Attr AttrWalk Fields

variable [HostOrder]

omit [HostOrder] in
/-- two memories with the same bytes from `p` up to `q` -/
def SameBytes (buf buf' : Mem) (p q : ℕ) : Prop := ∀ i, p ≤ i → i < q → buf' i = buf i

section

variable {buf buf' : Mem} {p q p' q' : ℕ}

omit [HostOrder] in
theorem SameBytes.mono (h : SameBytes buf buf' p q) (hp : p ≤ p') (hq : q' ≤ q) : SameBytes buf buf' p' q' :=
  fun i hi hi' => h i (hp.trans hi) (lt_of_lt_of_le hi' hq)

theorem SameBytes.u16 (h : SameBytes buf buf' p q) {i : ℕ} (hp : p ≤ i) (hq : i + 2 ≤ q) : getU16 buf' i = getU16 buf i := by
  rw [getU16, getU16, h i hp (by omega), h (i + 1) (by omega) (by omega)]

theorem SameBytes.u32 (h : SameBytes buf buf' p q) {i : ℕ} (hp : p ≤ i) (hq : i + 4 ≤ q) : getU32 buf' i = getU32 buf i := by
  rw [getU32_eq, getU32_eq, h.u16 hp (by omega), h.u16 (by omega) (by omega)]

omit [HostOrder] in
theorem SameBytes.bytes (h : SameBytes buf buf' p q) {i n : ℕ} (hp : p ≤ i) (hq : i + n ≤ q) :
    readBytes buf' i n = readBytes buf i n := by
  refine List.map_congr_left fun j hj => h _ (by omega) ?_
  have hlt := List.mem_range.1 hj
  omega

/-- an attribute that lies in the bytes -/
theorem SameBytes.attr (h : SameBytes buf buf' p q) {nla : ℕ} (hp : p ≤ nla) (hq : nla + nlaLenField buf nla ≤ q) :
    SameAttr buf buf' nla := fun i hi hi' => h i (hp.trans hi) (lt_of_lt_of_le hi' hq)

/-! ## The walk -/

/-- one step of the walk -/
theorem nlaOk_same {rem : ℤ} (h : SameBytes buf buf' p q) (hq : (p : ℤ) + rem ≤ q) : nlaOk buf' p rem = nlaOk buf p rem := by
  by_cases hroom : 4 ≤ rem
  · have hfield : nlaLenField buf' p = nlaLenField buf p := h.u16 le_rfl (by omega)
    rw [nlaOk, nlaOk, hfield]
  · simp only [nlaOk, decide_eq_false hroom, Bool.false_and]

/-- **The walk** over bytes that are the same -/
theorem visits_same (h : SameBytes buf buf' p q) {rem : ℤ} (hrem : rem < 2147483648) (hq : (p : ℤ) + rem ≤ q) (n : ℕ) :
    visits (nlaOk buf') (nlaNext buf') n p rem = visits (nlaOk buf) (nlaNext buf) n p rem := by
  induction n generalizing p rem with
  | zero => simp only [visits]
  | succ n ih =>
    rw [visits, visits, nlaOk_same h hq]
    split_ifs with hok
    · obtain ⟨hroom, -, hle⟩ := ((nlaStream buf).ok_iff p rem hrem).1 hok
      have hge := le_align4 (nlaLenField buf p)
      have hlt := align4_lt (nlaLenField buf p)
      have hnext : nlaNext buf p rem = (p + align4 (nlaLenField buf p), rem - (align4 (nlaLenField buf p) : ℕ)) := by
        rw [nlaNext, toInt32_of_mem (by omega) (by omega)]
      have hfield : nlaLenField buf' p = nlaLenField buf p := h.u16 le_rfl (by omega)
      have hnext' : nlaNext buf' p rem = nlaNext buf p rem := by rw [nlaNext, nlaNext, hfield]
      rw [hnext', hnext, ih (h.mono (Nat.le_add_right _ _) le_rfl) (by omega) (by push_cast; omega)]
    · rfl

end

/-! ## One attribute -/

section

variable {buf buf' : Mem} {nla : ℕ}

theorem SameAttr.lenField (h : SameAttr buf buf' nla) (hlen : 4 ≤ nlaLenField buf nla) :
    nlaLenField buf' nla = nlaLenField buf nla := by
  rw [nlaLenField, nlaLenField, getU16, getU16, h nla le_rfl (by omega), h (nla + 1) (by omega) (by omega)]

theorem SameAttr.len (h : SameAttr buf buf' nla) (hlen : 4 ≤ nlaLenField buf nla) : Attr.nlaLen buf' nla = Attr.nlaLen buf nla := by
  rw [Attr.nlaLen, Attr.nlaLen, h.lenField hlen]

theorem SameAttr.type (h : SameAttr buf buf' nla) (hlen : 4 ≤ nlaLenField buf nla) : nlaType buf' nla = nlaType buf nla := by
  rw [nlaType, nlaType, nlaTypeField, nlaTypeField, getU16, getU16, h (nla + 2) (by omega) (by omega),
    h (nla + 2 + 1) (by omega) (by omega)]

/-- the payload -/
theorem SameAttr.payload (h : SameAttr buf buf' nla) (hlen : 4 ≤ nlaLenField buf nla) :
    SameBytes buf buf' (nlaData nla) (nlaData nla + (Attr.nlaLen buf nla).toNat) := by
  intro i hi hi'
  refine h i ?_ ?_
  · rw [nlaData] at hi
    omega
  · rw [nlaData, NLA_HDRLEN, Attr.nlaLen, NLA_HDRLEN] at hi'
    omega

theorem SameAttr.validate (h : SameAttr buf buf' nla) (hlen : 4 ≤ nlaLenField buf nla) (maxtype : ℤ)
    (policy : ℕ → NlaPolicy) : validateNla buf' nla maxtype policy = validateNla buf nla maxtype policy := by
  -- the last byte is looked at when the payload has one
  have hlast : 0 < Attr.nlaLen buf nla → buf' (nlaData nla + (Attr.nlaLen buf nla).toNat - 1) =
      buf (nlaData nla + (Attr.nlaLen buf nla).toNat - 1) := by
    intro hpos
    exact h.payload hlen _ (by omega) (by omega)
  have hstr : ∀ pt : NlaPolicy, ¬ toU32 (Attr.nlaLen buf nla) < policyMinlen pt → pt.type = .string →
      0 < Attr.nlaLen buf nla := by
    intro pt hmin htype
    have hpos := policyMinlen_string htype
    have hlt : nlaLenField buf nla < 65536 := getU16_lt buf nla
    have hnat := toU32_of_mem (x := Attr.nlaLen buf nla) (by rw [Attr.nlaLen, NLA_HDRLEN]; omega)
      (by rw [Attr.nlaLen, NLA_HDRLEN]; omega)
    omega
  rw [validateNla, validateNla, h.type hlen, h.len hlen]
  simp only [policyMinlen_eq]
  by_cases hmin : toU32 (Attr.nlaLen buf nla) < policyMinlen (policy (nlaType buf nla))
  · simp only [if_pos hmin]
  · by_cases htype : (policy (nlaType buf nla)).type = .string
    · rw [hlast (hstr _ hmin htype)]
    · simp only [htype, false_and]

end

/-! ## The parser -/

section

variable {buf buf' : Mem} {maxtype : ℤ} {policy : ℕ → NlaPolicy} {head : ℕ} {len : ℤ}

theorem nlaParseBody_same {o : ℕ} (h : SameAttr buf buf' o) (hlen : 4 ≤ nlaLenField buf o) (tb : Index) :
    nlaParseBody buf' maxtype (some policy) tb o = nlaParseBody buf maxtype (some policy) tb o := by
  rw [nlaParseBody, nlaParseBody, h.type hlen]
  simp only [h.validate hlen]

theorem fold_same {offs : List ℕ} (h : ∀ o ∈ offs, SameAttr buf buf' o ∧ 4 ≤ nlaLenField buf o) (tb : Index) :
    offs.foldlM (nlaParseBody buf' maxtype (some policy)) tb = offs.foldlM (nlaParseBody buf maxtype (some policy)) tb := by
  induction offs generalizing tb with
  | nil => simp only [List.foldlM_nil]
  | cons o offs ih =>
    obtain ⟨⟨hsame, hlen⟩, hrest⟩ := List.forall_mem_cons.1 h
    rw [List.foldlM_cons, List.foldlM_cons, nlaParseBody_same hsame hlen]
    cases nlaParseBody buf maxtype (some policy) tb o with
    | error e => simp only [bind, Except.bind]
    | ok tb1 => exact ih hrest tb1

/-- **The parser** over bytes that are the same -/
theorem nlaParse_same (hlen : len < 2147483648) (h : SameBytes buf buf' head (head + len.toNat)) {n : ℕ}
    (hn : len.toNat < n) : nlaParse n buf' maxtype head len (some policy) = nlaParse n buf maxtype head len (some policy) := by
  obtain ⟨offs, hvisits, hlaws⟩ := (nlaStream buf).walk head len hlen
  have hq : (head : ℤ) + len ≤ (head + len.toNat : ℕ) := by
    push_cast
    exact add_le_add_right (Int.self_le_toNat len) _
  rw [parse_of_visits (hvisits n hn), parse_of_visits ((visits_same h hlen hq n).trans (hvisits n hn)), fold_same]
  intro o ho
  obtain ⟨hfrom, hhdr, hto⟩ := hlaws.inside o ho
  exact ⟨h.attr hfrom (by omega), hhdr⟩

/-- an attribute of a stream that was parsed -/
structure Inside (buf : Mem) (policy : ℕ → NlaPolicy) (p q t nla : ℕ) : Prop where
  left : p ≤ nla
  hdr : 4 ≤ nlaLenField buf nla
  right : nla + nlaLenField buf nla ≤ q
  conforms : Conforms buf nla (policy t)

omit [HostOrder] in
/-- what the loop leaves in the index is in the list it went over -/
theorem fold_mem [HostOrder] {S : ℕ → Prop} {offs : List ℕ} {tb tb' : Index}
    (h : offs.foldlM (nlaParseBody buf maxtype (some policy)) tb = .ok tb') (hoffs : ∀ o ∈ offs, S o)
    (htb : ∀ t nla, tb t = some nla → S nla) : ∀ t nla, tb' t = some nla → S nla := by
  induction offs generalizing tb with
  | nil =>
    cases h
    exact htb
  | cons o offs ih =>
    obtain ⟨ho, hrest⟩ := List.forall_mem_cons.1 hoffs
    rw [List.foldlM_cons] at h
    cases hb : nlaParseBody buf maxtype (some policy) tb o with
    | error e =>
      rw [hb] at h
      cases h
    | ok tb1 =>
      rw [hb] at h
      refine ih h hrest fun t nla hget => ?_
      rw [nlaParseBody] at hb
      by_cases habove : maxtype < nlaType buf o
      · rw [if_pos habove] at hb
        cases hb
        exact htb t nla hget
      · rw [if_neg habove] at hb
        by_cases hneg : validateNla buf o maxtype policy < 0
        · cases hb.symm.trans (if_pos hneg)
        · cases hb.symm.trans (if_neg hneg)
          by_cases ht : t = nlaType buf o
          · rw [ht, Function.update_self] at hget
            cases hget
            exact ho
          · rw [Function.update_of_ne ht] at hget
            exact htb t nla hget

/-- **The index** has attributes of the stream. -/
theorem nlaParse_inside (hlen : len < 2147483648) {n : ℕ} (hn : len.toNat < n) {err : ℤ} {tb : Index}
    (hparse : nlaParse n buf maxtype head len (some policy) = some (err, tb)) (hok : 0 ≤ err) {t nla : ℕ}
    (hget : tb t = some nla) : Inside buf policy head (head + len.toNat) t nla := by
  obtain ⟨offs, hvisits, hlaws⟩ := (nlaStream buf).walk head len hlen
  rw [parse_of_visits (hvisits n hn), Option.some_inj] at hparse
  have hlen4 : ∀ o ∈ offs, 4 ≤ nlaLenField buf o := fun o ho => (hlaws.inside o ho).2.1
  have hconforms : Conforms buf nla (policy t) :=
    (parseEnd_entries hlen4 (by rw [hparse]; exact hok) t nla (by rw [hparse]; exact hget)).conforms
  cases hfold : offs.foldlM (nlaParseBody buf maxtype (some policy)) fun _ => none with
  | error e =>
    rw [hfold] at hparse
    have hneg := parse_error_neg buf maxtype (some policy) offs _ e hfold
    cases hparse
    exact absurd hneg (not_lt.2 hok)
  | ok tb' =>
    rw [hfold] at hparse
    cases hparse
    have hmem := fold_mem (S := fun o => o ∈ offs) hfold (fun _ ho => ho) (fun _ _ hnone => absurd hnone nofun) t nla hget
    obtain ⟨hfrom, hhdr, hto⟩ := hlaws.inside nla hmem
    have hpos : 0 ≤ len := by omega
    exact ⟨hfrom, hhdr, by omega, hconforms⟩

/-- **The attributes of a message** that was parsed, whatever its length is -/
theorem nlmsgParse_inside {m : NlMsg} {front : ℕ} (hmod : front % 4 = 0) (hfront : front < 65536)
    (hok : 0 ≤ (nlmsgParse m front maxtype (some policy)).1) {t nla : ℕ}
    (hget : (nlmsgParse m front maxtype (some policy)).2 t = some nla) : Inside m.buf policy (16 + front) m.nlmsgLen t nla := by
  have halign : alignInt front = front := by
    rw [alignInt, toInt32_of_mem (by omega) (by omega)]
    omega
  have hdata : nlmsgAttrdata front = 16 + front := by
    rw [nlmsgAttrdata, halign, nlmsgData, NLMSG_HDRLEN]
    omega
  have hlt : nlmsgAttrlen m.nlmsgLen front < 2147483648 := by
    unfold nlmsgAttrlen
    generalize nlmsgDatalen m.nlmsgLen - alignInt front = x
    unfold toInt32
    split_ifs <;> omega
  unfold nlmsgParse at hok hget
  by_cases hhdr : nlmsgValidHdr m front = true
  · have hlong : 16 + front ≤ m.nlmsgLen := by
      rw [nlmsgValidHdr, NLMSG_HDRLEN, decide_eq_true_eq] at hhdr
      unfold toU32 at hhdr
      omega
    have hattrlen : nlmsgAttrlen m.nlmsgLen front ≤ m.nlmsgLen - (16 + front) := by
      rw [nlmsgAttrlen, nlmsgDatalen, halign, NLMSG_HDRLEN]
      unfold toInt32
      split_ifs <;> omega
    obtain ⟨offs, hvisits, -⟩ := (nlaStream m.buf).walk (nlmsgAttrdata front) (nlmsgAttrlen m.nlmsgLen front) hlt
    have hsome : nlaParse _ m.buf maxtype _ _ (some policy) = some _ := parse_of_visits (hvisits _ (Nat.lt_succ_self _))
    rw [if_pos hhdr, hsome, Option.getD_some] at hok hget
    have hin := nlaParse_inside hlt (Nat.lt_succ_self _) hsome hok hget
    rw [hdata] at hin
    exact ⟨hin.left, hin.hdr, hin.right.trans (by omega), hin.conforms⟩
  · rw [if_neg hhdr] at hget
    cases hget

theorem Inside.same {p q t nla : ℕ} (hin : Inside buf policy p q t nla) (h : SameBytes buf buf' p q) : SameAttr buf buf' nla :=
  h.attr hin.left hin.right

end

/-! ## Readers -/

section

variable {buf buf' : Mem} {nla : ℕ}

theorem SameAttr.bytes (h : SameAttr buf buf' nla) (hlen : 4 ≤ nlaLenField buf nla) : nlaBytes buf' nla = nlaBytes buf nla := by
  rw [nlaBytes, nlaBytes, h.len hlen, (h.payload hlen).bytes le_rfl le_rfl]

theorem SameAttr.nested (h : SameAttr buf buf' nla) (hlen : 4 ≤ nlaLenField buf nla) (maxtype : ℤ) (policy : ℕ → NlaPolicy) :
    nlaParseNested buf' maxtype nla (some policy) = nlaParseNested buf maxtype nla (some policy) := by
  have hlt : Attr.nlaLen buf nla < 2147483648 := by
    have hfield : nlaLenField buf nla < 65536 := getU16_lt buf nla
    rw [Attr.nlaLen]
    omega
  rw [nlaParseNested, nlaParseNested, h.len hlen,
    nlaParse_same hlt (h.payload hlen) (Nat.lt_succ_self _)]

end

end Libnl.Validate
