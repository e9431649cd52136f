/-
The attribute walk and the message walk on arbitrary bytes.

`nla_for_each_attr` compares the unaligned length with the signed count that remains and subtracts the aligned one, so
the count may go negative on the last attribute; `nlmsg_ok` compares as unsigned integers and `nlmsg_next` converts the
aligned length to `int`. For the three largest lengths an `int` can hold, the aligned length is 2^31: the conversion makes
it negative, the count wraps below zero and the walk stops.

- `nlaStream`, `nlmsgStream`: both walks are walks over a stream of records.
- `parse_fold`, `find_fold`: the loops of `nla_parse` and `nla_find` as facts about the visited list.
- `nested_visits`: the walk over a nest ends.
- `walk_laws`: termination, bounds, alignment, order and disjointness for every buffer and every length, and what
  `nla_parse` and `nla_find` deliver.
-/
import Mathlib.Tactic
import Libnl.Core.Walk
import Libnl.Message.Attr

namespace Libnl.AttrWalk

open Bytes Walk Msg Attr

variable [HostOrder]

/-! ## The two streams -/

theorem nlaStream (buf : Mem) : RecordStream (nlaOk buf) (nlaNext buf) 4 (nlaLenField buf) where
  hdr_pos := by decide
  ok_iff pos rem _ := by
    simp only [nlaOk, Bool.and_eq_true, decide_eq_true_eq, and_assoc]
    exact Iff.rfl
  next_eq pos rem hrem hok := by
    simp only [nlaOk, Bool.and_eq_true, decide_eq_true_eq] at hok
    have hlt := align4_lt (nlaLenField buf pos)
    left
    simp only [nlaNext]
    rw [toInt32_of_mem (by omega) (by omega)]

theorem nlmsgStream (buf : Mem) : RecordStream (nlmsgOk buf) (nlmsgNext buf) 16 (getU32 buf) where
  hdr_pos := by decide
  ok_iff pos rem hrem := by
    simp only [nlmsgOk, Bool.and_eq_true, decide_eq_true_eq, and_assoc]
    refine and_congr_right fun h16 => and_congr_right fun _ => ?_
    have := toU32_of_mem (x := rem) (by omega) (by omega)
    omega
  next_eq pos rem hrem hok := by
    simp only [nlmsgOk, Bool.and_eq_true, decide_eq_true_eq] at hok
    obtain ⟨⟨h16, -⟩, hle⟩ := hok
    have hu := toU32_of_mem (x := rem) (by omega) (by omega)
    have halign : nlmsgAlign (getU32 buf pos) = align4 (getU32 buf pos) := nlmsgAlign_eq (by omega)
    have hlt := align4_lt (getU32 buf pos)
    simp only [nlmsgNext, halign]
    by_cases hbig : align4 (getU32 buf pos) < 2147483648
    · left
      rw [toInt32_of_mem (x := (align4 (getU32 buf pos) : ℕ)) (by omega) (by omega),
        toInt32_of_mem (by omega) (by omega)]
      norm_cast
    · -- the aligned length is 2^31: it becomes negative, and so does what remains
      right
      have hle4 := le_align4 (getU32 buf pos)
      have hmod := align4_mod (getU32 buf pos)
      have h31 : align4 (getU32 buf pos) = 2147483648 := by omega
      rw [h31]
      simp only [toInt32]
      split_ifs <;> omega

/-! ## Loops over the visited attributes -/

/-- **Last one wins.** What an accepted run of the body of `nla_parse` leaves in the index. -/
theorem parse_fold (buf : Mem) (maxtype : ℕ) (policy : Option (ℕ → NlaPolicy)) (offs : List ℕ) (tb tb' : Index)
    (h : offs.foldlM (nlaParseBody buf maxtype policy) tb = .ok tb') (t : ℕ) (ht : t ≤ maxtype) :
    tb' t = (offs.reverse.find? fun o => nlaType buf o = t).or (tb t) := by
  induction offs generalizing tb with
  | nil => simp at h; cases h; simp
  | cons o offs ih =>
    rw [List.foldlM_cons] at h
    cases hb : nlaParseBody buf maxtype policy tb o with
    | error e => rw [hb] at h; cases h
    | ok tb1 =>
      rw [hb] at h
      rw [ih tb1 h, List.reverse_cons, List.find?_append, Option.or_assoc]
      congr 1
      simp only [nlaParseBody] at hb
      split_ifs at hb with hm he
      · cases hb
        have : nlaType buf o ≠ t := by omega
        simp [this]
      · cases hb
        by_cases hto : nlaType buf o = t
        · subst hto; simp
        · simp [hto, Function.update_of_ne (Ne.symm hto)]

/-- without a policy no attribute is rejected -/
theorem parse_accepts (buf : Mem) (maxtype : ℤ) (offs : List ℕ) (tb : Index) :
    ∃ tb', offs.foldlM (nlaParseBody buf maxtype none) tb = .ok tb' := by
  induction offs generalizing tb with
  | nil => exact ⟨tb, rfl⟩
  | cons o offs ih =>
    rw [List.foldlM_cons]
    simp only [nlaParseBody]
    split_ifs
    · exact ih tb
    · exact absurd ‹_› (by decide)
    · exact ih _

/-- **First one wins.** -/
theorem find_fold (buf : Mem) (attrtype : ℤ) (offs : List ℕ) :
    offs.foldlM (fun (_ : Unit) nla => if (nlaType buf nla : ℤ) = attrtype then Except.error nla else .ok ()) () =
      match offs.find? fun o => (nlaType buf o : ℤ) = attrtype with
      | some o => .error o
      | none => .ok () := by
  induction offs with
  | nil => rfl
  | cons o offs ih =>
    rw [List.foldlM_cons, List.find?_cons]
    by_cases ho : (nlaType buf o : ℤ) = attrtype
    · simp only [ho, if_true, decide_true]; rfl
    · simp only [ho, if_false, decide_false]; exact ih

/-! ## The walk laws -/

/-- what `nla_parse` and `nla_find` deliver on a stream whose visited attributes are `offs` -/
structure Delivers (buf : Mem) (head : ℕ) (len : ℤ) (n : ℕ) (offs : List ℕ) : Prop where
  parse : ∀ (maxtype : ℕ) (policy : Option (ℕ → NlaPolicy)), ∃ err tb,
    nlaParse n buf maxtype head len policy = some (err, tb) ∧ (policy = none → err = 0) ∧
      (err = 0 → ∀ t ≤ maxtype, tb t = offs.reverse.find? fun o => nlaType buf o = t)
  find : ∀ attrtype : ℤ, nlaFind n buf head len attrtype = some (offs.find? fun o => (nlaType buf o : ℤ) = attrtype)

/-- an error exit of `nla_parse` carries a negative code -/
theorem parse_error_neg (buf : Mem) (maxtype : ℤ) (policy : Option (ℕ → NlaPolicy)) (offs : List ℕ) (tb : Index)
    (e : ℤ × Index) (h : offs.foldlM (nlaParseBody buf maxtype policy) tb = .error e) : e.1 < 0 := by
  induction offs generalizing tb with
  | nil => cases h
  | cons o offs ih =>
    rw [List.foldlM_cons] at h
    cases hb : nlaParseBody buf maxtype policy tb o with
    | ok tb1 => rw [hb] at h; exact ih tb1 h
    | error e1 =>
      rw [hb] at h
      cases h
      simp only [nlaParseBody] at hb
      split_ifs at hb with hm he
      cases hb
      exact he

theorem delivers (buf : Mem) (head : ℕ) (len : ℤ) (n : ℕ) (offs : List ℕ)
    (hv : visits (nlaOk buf) (nlaNext buf) n head len = some offs) : Delivers buf head len n offs := by
  refine ⟨fun maxtype policy => ?_, fun attrtype => ?_⟩
  · have hfold := forEach_eq_foldlM _ _ (nlaParseBody buf maxtype policy) n (fun _ => none) head len offs hv
    simp only [nlaParse, nlaForEachAttr, hfold, Option.map_some]
    cases hf : offs.foldlM (nlaParseBody buf maxtype policy) fun _ => none with
    | ok tb =>
      refine ⟨0, tb, rfl, fun _ => rfl, fun _ t ht => ?_⟩
      rw [parse_fold buf maxtype policy offs _ tb hf t ht, Option.or_none]
    | error e =>
      have hneg := parse_error_neg buf maxtype policy offs _ e hf
      refine ⟨e.1, e.2, rfl, fun hp => ?_, fun h0 => by omega⟩
      subst hp
      obtain ⟨tb', htb⟩ := parse_accepts buf maxtype offs fun _ => none
      rw [htb] at hf; cases hf
  · have hfold := forEach_eq_foldlM _ _
      (fun (_ : Unit) nla => if (nlaType buf nla : ℤ) = attrtype then Except.error nla else .ok ()) n () head len offs hv
    simp only [nlaFind, nlaForEachAttr, hfold, find_fold, Option.map_some]
    cases offs.find? fun o => (nlaType buf o : ℤ) = attrtype <;> rfl

/-- **Walk laws.** For every buffer and every `int` length the attribute walk ends, and the attributes it visits lie inside
the buffer, at aligned offsets, in increasing order and disjoint; `nla_parse` leaves the last visited attribute of each
type in the index and `nla_find` returns the first. The message walk obeys the same laws. -/
theorem walk_laws (buf : Mem) (head : ℕ) (len : Int32) :
    (∃ offs, Laws 4 (nlaLenField buf) head len.toInt offs ∧ ∀ n, len.toInt.toNat < n →
      visits (nlaOk buf) (nlaNext buf) n head len.toInt = some offs ∧ Delivers buf head len.toInt n offs) ∧
    ∃ offs, Laws 16 (getU32 buf) head len.toInt offs ∧ ∀ n, len.toInt.toNat < n →
      visits (nlmsgOk buf) (nlmsgNext buf) n head len.toInt = some offs := by
  have hlen : len.toInt < 2147483648 := by simpa using len.toInt_lt
  constructor
  · obtain ⟨offs, hv, hl⟩ := (nlaStream buf).walk head len.toInt hlen
    exact ⟨offs, hl, fun n hn => ⟨hv n hn, delivers buf head len.toInt n offs (hv n hn)⟩⟩
  · obtain ⟨offs, hv, hl⟩ := (nlmsgStream buf).walk head len.toInt hlen
    exact ⟨offs, hl, hv⟩

/-! ## Nests and whole messages -/

/-- the attributes `nla_for_each_nested` visits; each takes a byte at least, so the length bounds the iterations -/
def nestedAttrs (buf : Mem) (attr : ℕ) : List ℕ :=
  (visits (nlaOk buf) (nlaNext buf) ((nlaLen buf attr).toNat + 1) (nlaData attr) (nlaLen buf attr)).getD []

/-- the walk over a nest ends, however many iterations it has beyond the length -/
theorem nested_visits_of_lt (buf : Mem) (attr : ℕ) {n : ℕ} (hn : (nlaLen buf attr).toNat < n) :
    visits (nlaOk buf) (nlaNext buf) n (nlaData attr) (nlaLen buf attr) = some (nestedAttrs buf attr) := by
  have hlt : nlaLenField buf attr < 65536 := getU16_lt buf attr
  have hlen : nlaLen buf attr < 2147483648 := by
    unfold nlaLen
    omega
  obtain ⟨offs, hv, -⟩ := (nlaStream buf).walk (nlaData attr) (nlaLen buf attr) hlen
  have hsome := hv _ (Nat.lt_succ_self _)
  unfold nestedAttrs
  rw [hv n hn, hsome]
  rfl

theorem nested_visits (buf : Mem) (attr : ℕ) :
    visits (nlaOk buf) (nlaNext buf) ((nlaLen buf attr).toNat + 1) (nlaData attr) (nlaLen buf attr) =
      some (nestedAttrs buf attr) :=
  nested_visits_of_lt buf attr (Nat.lt_succ_self _)

/-- `nla_parse_nested`; the length bounds the iterations -/
def nlaParseNested (buf : Mem) (maxtype : ℤ) (nla : ℕ) (policy : Option (ℕ → NlaPolicy)) : ℤ × Index :=
  (nlaParse ((nlaLen buf nla).toNat + 1) buf maxtype (nlaData nla) (nlaLen buf nla) policy).getD (0, fun _ => none)

/-- `nlmsg_valid_hdr` -/
def nlmsgValidHdr (nlh : NlMsg) (hdrlen : ℤ) : Bool := decide (toU32 (NLMSG_HDRLEN + hdrlen) ≤ nlh.nlmsgLen)

/-- `nlmsg_parse`; what is in the index of a message that is too short is not looked at -/
def nlmsgParse (nlh : NlMsg) (hdrlen maxtype : ℤ) (policy : Option (ℕ → NlaPolicy)) : ℤ × Index :=
  if nlmsgValidHdr nlh hdrlen then
    (nlaParse ((nlmsgAttrlen nlh.nlmsgLen hdrlen).toNat + 1) nlh.buf maxtype (nlmsgAttrdata hdrlen)
      (nlmsgAttrlen nlh.nlmsgLen hdrlen) policy).getD (0, fun _ => none)
  else (-NLE_MSG_TOOSHORT, fun _ => none)

/-- **A message with a header in front of its attributes**: what `nlmsg_parse` walks over -/
theorem nlmsgParse_front {n : NlMsg} {front k : ℕ} (hlen : n.nlmsgLen = 16 + front + k) (hmod : front % 4 = 0)
    (hsize : 16 + front + k < 2147483648) (maxtype : ℤ) (policy : Option (ℕ → NlaPolicy)) :
    nlmsgParse n front maxtype policy =
      (nlaParse (k + 1) n.buf maxtype (16 + front) k policy).getD (0, fun _ => none) := by
  have halign : alignInt front = front := by
    rw [alignInt, toInt32_of_mem (by omega) (by omega)]
    omega
  have hdata : nlmsgAttrdata front = 16 + front := by
    rw [nlmsgAttrdata, halign, nlmsgData, NLMSG_HDRLEN]
    omega
  have hattrlen : nlmsgAttrlen n.nlmsgLen front = k := by
    have hdatalen : nlmsgDatalen n.nlmsgLen = (front + k : ℕ) := by
      rw [nlmsgDatalen, NLMSG_HDRLEN, hlen, toInt32_of_mem (by omega) (by omega)]
      omega
    rw [nlmsgAttrlen, hdatalen, halign, toInt32_of_mem (by omega) (by omega)]
    omega
  have hvalid : nlmsgValidHdr n front = true := by
    rw [nlmsgValidHdr, NLMSG_HDRLEN, hlen]
    unfold toU32
    rw [decide_eq_true_eq]
    omega
  rw [nlmsgParse, if_pos hvalid, hdata, hattrlen, Int.toNat_natCast]

end Libnl.AttrWalk
