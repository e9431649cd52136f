/-
The wire format of extended matches: `rtnl_ematch_fill_attr` and `rtnl_ematch_parse_attr`.

The table of a tree goes out as a list of attributes, one for each match: a header of eight bytes, and the data, which the
module of the kind writes. Containers and texts are here; a module for any other kind is a parameter. The list stands in a
nest, behind the number of matches, and both in an outer nest.

- `fill_all`: the writer puts one attribute for each match of the table (`LeafOf`); the padding at its end is whatever the
  buffer holds.
- `parse_all`: the reader makes of these attributes the table again.
- `ematch_round_trip`: with `updated_placed` and `link_placed`, a tree comes back with its content.
- `ematch_lost`: an empty tree comes back as none at all, and one whose list is longer than 65535 bytes does not come back;
  the list is taken away when its nest is closed, and nobody looks.
-/
import Mathlib.Tactic
import Libnl.Message.Writer
import Libnl.Route.Ematch

namespace Libnl.Ematch

open Bytes Msg Attr AttrWalk AttrTree AttrStream Writer Ematches

/-! ## Modules -/

/-- `struct rtnl_ematch_ops`, without name and printing; a parser gets the buffer, the offset of the data and their length -/
structure RtnlEmatchOps where
  eoMinlen : ℕ
  eoDatalen : ℕ
  eoParse : Option (Mem → ℕ → ℕ → Except ℤ EData)
  eoFill : Option (NlMsg → EData → NlMsg × ℤ)

variable [HostOrder]

def containerParse (buf : Mem) (data _len : ℕ) : Except ℤ EData := .ok (.ref (getU32 buf data))

def containerFill (msg : NlMsg) (data : EData) : NlMsg × ℤ := nlmsgAppend msg (u32Bytes data.asRef) 0

def containerOps : RtnlEmatchOps := ⟨4, 4, some containerParse, some containerFill⟩

/-- `struct tcf_em_text` -/
def TextData.cfg (t : TextData) : List UInt8 :=
  t.algo ++ (u16Bytes t.fromOffset.toNat ++ (u16Bytes t.toOffset.toNat ++ (u16Bytes t.pattern.length ++ [t.layers, t.pad])))

/-- size of `struct tcf_em_text` -/
def TEXT_HDRLEN : ℕ := 24

/-- `text_parse`; `eo_minlen` has seen to it that the header is there -/
def textParse (buf : Mem) (data len : ℕ) : Except ℤ EData :=
  let plen := len - TEXT_HDRLEN
  let patternLen := getU16 buf (data + 20)
  if plen < patternLen then .error (-NLE_INVAL)
  else .ok (.text {
    algo := readBytes buf data 16
    algo_len := readBytes_length buf data 16
    fromOffset := UInt16.ofNat (getU16 buf (data + 16))
    toOffset := UInt16.ofNat (getU16 buf (data + 18))
    layers := buf (data + 22)
    pad := buf (data + 23)
    pattern := readBytes buf (data + TEXT_HDRLEN) patternLen
    pattern_len := by rw [readBytes_length]; exact getU16_lt buf (data + 20) })

def textFill (msg : NlMsg) (data : EData) : NlMsg × ℤ :=
  match data with
  | .text t =>
    match nlmsgAppend msg t.cfg 0 with
    | (msg, err) => if err < 0 then (msg, err) else nlmsgAppend msg t.pattern 0
  | _ => ({ msg with bug := true }, 0)

def textOps : RtnlEmatchOps := ⟨TEXT_HDRLEN, 32, some textParse, some textFill⟩

/-- the modules registered: the two here, and those for other kinds -/
def rtnlEmatchLookupOps (others : UInt16 → Option RtnlEmatchOps) (kind : UInt16) : Option RtnlEmatchOps :=
  if kind = TCF_EM_CONTAINER then some containerOps
  else if kind = TCF_EM_TEXT then some textOps
  else others kind

variable (others : UInt16 → Option RtnlEmatchOps)

/-! ## Writing -/

/-- `struct tcf_ematch_hdr` -/
def RtnlEmatch.hdr (e : RtnlEmatch) : List UInt8 :=
  u16Bytes e.eId.toNat ++ (u16Bytes e.eKind.toNat ++ (u16Bytes e.eFlags.toNat ++ u16Bytes 0))

/-- the bytes of data no module knows -/
def EData.rawBytes : EData → List UInt8
  | .raw bytes => bytes
  | _ => []

/-- the data of a match, from the module or as they are. A match without a module is a null pointer to the source. -/
def fillData (msg : NlMsg) (e : RtnlEmatch) : NlMsg × ℤ :=
  match rtnlEmatchLookupOps others e.eKind with
  | none => ({ msg with bug := true }, 0)
  | some ops =>
    match ops.eoFill with
    | some fill => fill msg e.eData
    | none =>
      if e.eFlags &&& TCF_EM_SIMPLE ≠ 0 then nlmsgAppend msg (e.eData.rawBytes.take 4) 0
      else if 0 < ops.eoDatalen then nlmsgAppend msg (e.eData.rawBytes.take ops.eoDatalen) 0
      else (msg, 0)

/-- loop body of `fill_ematch_sequence`; what closing the nest returns is not looked at -/
def fillEmatch (msg : NlMsg) (e : RtnlEmatch) : NlMsg × ℤ :=
  inNest (-NLE_NOMEM) (nlaNestStart msg (e.eIndex.toNat + 1)) fun msg attr =>
    thenPut (-NLE_NOMEM) (nlmsgAppend msg e.hdr 0) fun msg =>
      thenPut (-NLE_NOMEM) (fillData others msg e) fun msg => ((nlaNestEnd msg attr).1, 0)

/-- the same with any writer of the data -/
def putEmatch (fill : NlMsg → NlMsg × ℤ) (msg : NlMsg) (eIndex : UInt16) (hdr : List UInt8) : NlMsg × ℤ :=
  inNest (-NLE_NOMEM) (nlaNestStart msg (eIndex.toNat + 1)) fun msg attr =>
    thenPut (-NLE_NOMEM) (nlmsgAppend msg hdr 0) fun msg =>
      thenPut (-NLE_NOMEM) (fill msg) fun msg => ((nlaNestEnd msg attr).1, 0)

/-- one match after the other -/
def fillAll : List RtnlEmatch → NlMsg → NlMsg × ℤ
  | [], msg => (msg, 0)
  | e :: es, msg => thenPut (-NLE_NOMEM) (fillEmatch others msg e) (fillAll es)

/-- second loop of `fill_ematch_sequence`: both loops for the sequence in every container -/
def fillDeeper : Ematches → NlMsg → NlMsg × ℤ
  | .nil, msg => (msg, 0)
  | .cons e childs next, msg =>
    if e.isContainer then
      thenPut (-NLE_NOMEM) (thenPut (-NLE_NOMEM) (fillAll others childs.level msg) (fillDeeper childs)) (fillDeeper next)
    else fillDeeper next msg

def fillEmatchSequence (list : Ematches) (msg : NlMsg) : NlMsg × ℤ :=
  thenPut (-NLE_NOMEM) (fillAll others list.level msg) (fillDeeper others list)

def TCA_EMATCH_TREE_HDR : ℕ := 1
def TCA_EMATCH_TREE_LIST : ℕ := 2
def TCA_EMATCH_TREE_MAX : ℕ := 2

/-- `struct tcf_ematch_tree_hdr` -/
def treeHdr (nmatches : ℕ) (progid : UInt16) : List UInt8 := u16Bytes nmatches ++ u16Bytes progid.toNat

/-- `rtnl_ematch_fill_attr`; the numbers it leaves in the tree are not part of the result -/
def rtnlEmatchFillAttr (msg : NlMsg) (attrid : ℤ) (tree : RtnlEmatchTree) : NlMsg × ℤ :=
  match updateContainerIndex tree.etList 0 with
  | .error err => (msg, err)
  | .ok (list, index) =>
    inNest (-NLE_NOMEM) (nlaNestStart msg attrid) fun msg topattr =>
      thenPut (-NLE_NOMEM) (nlaPut msg TCA_EMATCH_TREE_HDR 4 (treeHdr index tree.etProgid)) fun msg =>
        inNest (-NLE_NOMEM) (nlaNestStart msg TCA_EMATCH_TREE_LIST) fun msg list' =>
          thenPut (-NLE_NOMEM) (fillEmatchSequence others list msg) fun msg =>
            ((nlaNestEnd (nlaNestEnd msg list').1 topattr).1, 0)

/-! ## Reading -/

def treePolicy (type : ℕ) : NlaPolicy :=
  if type = TCA_EMATCH_TREE_HDR then ⟨.unspec, 4, 0⟩
  else if type = TCA_EMATCH_TREE_LIST then ⟨.nested, 0, 0⟩
  else ⟨.unspec, 0, 0⟩

/-- loop body of `rtnl_ematch_parse_attr` -/
def parseMatch (buf : Mem) (nmatches : ℕ) (index : List RtnlEmatch) (a : ℕ) : Except ℤ (List RtnlEmatch) :=
  if toU64 (nlaLen buf a) < 8 then .error (-NLE_INVAL)
  else if nmatches ≤ index.length then .error (-NLE_RANGE)
  else
    let hdr := nlaData a
    let data := hdr + 8
    let len := toU64 (nlaLen buf a) - 8
    let kind := UInt16.ofNat (getU16 buf (hdr + 2))
    if kind = TCF_EM_CONTAINER ∧ nmatches ≤ getU32 buf data then .error (-NLE_INVAL)
    else
      let e : RtnlEmatch := ⟨UInt16.ofNat (getU16 buf hdr), kind, UInt16.ofNat (getU16 buf (hdr + 4)), 0, .null⟩
      match rtnlEmatchLookupOps others kind with
      | none => .ok (index ++ [e])
      | some ops =>
        if ops.eoMinlen ≠ 0 ∧ len < ops.eoMinlen then .error (-NLE_INVAL)
        else
          match ops.eoParse with
          | none => .ok (index ++ [{ e with eData := .raw (List.replicate ops.eoDatalen 0) }])
          | some parse =>
            match parse buf data len with
            | .error err => .error err
            | .ok d => .ok (index ++ [{ e with eData := d }])

/-- `rtnl_ematch_parse_attr`: the error, or the tree if there is one; linking may take `n` steps -/
def rtnlEmatchParseAttr (n : ℕ) (buf : Mem) (attr : ℕ) : Option (Except ℤ (Option RtnlEmatchTree)) :=
  let (err, tb) := nlaParseNested buf TCA_EMATCH_TREE_MAX attr (some treePolicy)
  if err < 0 then some (.error err)
  else
    match tb TCA_EMATCH_TREE_HDR with
    | none => some (.error (-NLE_MISSING_ATTR))
    | some thdr =>
      let nmatches := getU16 buf (nlaData thdr)
      let progid := UInt16.ofNat (getU16 buf (nlaData thdr + 2))
      -- empty trees are ignored
      if nmatches = 0 then some (.ok none)
      else
        match tb TCA_EMATCH_TREE_LIST with
        | none => some (.error (-NLE_MISSING_ATTR))
        | some list =>
          if nlaLen buf list / nlaTotalSize 8 < nmatches then some (.error (-NLE_INVAL))
          else
            match (nestedAttrs buf list).foldlM (parseMatch others buf nmatches) [] with
            | .error err => some (.error err)
            | .ok index =>
              if index.length ≠ nmatches then some (.error (-NLE_INVAL))
              else (linkTree index n 0).map fun r => if r.2 < 0 then .error r.2 else .ok (some ⟨progid, r.1⟩)

/-! ## What is written -/

theorem fillAll_append (as bs : List RtnlEmatch) (msg : NlMsg) :
    fillAll others (as ++ bs) msg = thenPut (-NLE_NOMEM) (fillAll others as msg) (fillAll others bs) := by
  induction as generalizing msg with
  | nil => exact (thenPut_ok _ msg _).symm
  | cons e es ih =>
    rw [List.cons_append, fillAll, fillAll, thenPut_assoc (by decide)]
    exact congrArg (thenPut _ _) (funext ih)

theorem fillDeeper_eq (l : Ematches) (msg : NlMsg) : fillDeeper others l msg = fillAll others l.deeper msg := by
  induction l generalizing msg with
  | nil => rfl
  | cons e childs next ihc ihn =>
    rw [fillDeeper, deeper]
    by_cases hc : e.isContainer = true
    · rw [if_pos hc, if_pos hc, fillAll_append, fillAll_append, ← funext ihc, ← funext ihn]
    · rw [if_neg hc, if_neg hc, List.nil_append]
      exact ihn msg

/-- the two recursions write the table -/
theorem fillSequence_eq (l : Ematches) (msg : NlMsg) :
    fillEmatchSequence others l msg = fillAll others l.flat msg := by
  rw [fillEmatchSequence, flat, fillAll_append, ← funext (fillDeeper_eq others l)]

/-- a match that can be written into a table of `n` and read again -/
def Ready (n : ℕ) (e : RtnlEmatch) : Prop :=
  (e.eKind = TCF_EM_CONTAINER ∧ containerRef e < n) ∨ (e.eKind = TCF_EM_TEXT ∧ ∃ t, e.eData = .text t)

/-- the data as they are written -/
def RtnlEmatch.payload (e : RtnlEmatch) : List UInt8 :=
  match e.eData with
  | .text t => if e.isContainer then u32Bytes 0 else t.cfg ++ t.pattern
  | d => if e.isContainer then u32Bytes d.asRef else []

theorem payload_container {e : RtnlEmatch} (h : e.eKind = TCF_EM_CONTAINER) : e.payload = u32Bytes (containerRef e) := by
  have hc : e.isContainer = true := decide_eq_true h
  rw [RtnlEmatch.payload, containerRef]
  cases e.eData <;> exact if_pos hc

theorem payload_text {e : RtnlEmatch} {t : TextData} (h : e.eKind = TCF_EM_TEXT) (ht : e.eData = .text t) :
    e.payload = t.cfg ++ t.pattern := by
  have hc : ¬ e.isContainer = true := by
    rw [RtnlEmatch.isContainer, h]
    decide
  rw [RtnlEmatch.payload, ht]
  exact if_neg hc

@[simp] theorem hdr_length (e : RtnlEmatch) : e.hdr.length = 8 := by
  simp only [RtnlEmatch.hdr, List.length_append, u16Bytes_length]

@[simp] theorem cfg_length (t : TextData) : t.cfg.length = TEXT_HDRLEN := by
  simp only [TextData.cfg, List.length_append, u16Bytes_length, t.algo_len]
  rfl

/-- the attribute of a match: padded to full words, with whatever bytes -/
def LeafOf (e : RtnlEmatch) (l : Leaf) : Prop :=
  ∃ t pad, t < 32768 ∧ pad.length = align4 (e.hdr ++ e.payload).length - (e.hdr ++ e.payload).length ∧
    l = ⟨32768 + t, (e.hdr ++ e.payload) ++ pad⟩

/-- the bytes a match takes -/
def matchSize (e : RtnlEmatch) : ℕ := 4 + align4 (e.hdr ++ e.payload).length

theorem LeafOf.payload_length {e : RtnlEmatch} {l : Leaf} (h : LeafOf e l) : 4 + l.payload.length = matchSize e := by
  obtain ⟨t, pad, -, hpad, rfl⟩ := h
  have hge := le_align4 (e.hdr ++ e.payload).length
  simp only [matchSize]
  rw [List.length_append, hpad]
  omega

theorem LeafOf.enc_length {e : RtnlEmatch} {l : Leaf} (h : LeafOf e l) : (encLeaf l.type l.payload).length = matchSize e := by
  have hmod := align4_mod (e.hdr ++ e.payload).length
  rw [encLeaf_length, h.payload_length, matchSize, align4_of_mod (by omega)]

theorem LeafOf.wf {e : RtnlEmatch} {l : Leaf} (h : LeafOf e l) (hsize : matchSize e ≤ 65535) : l.WF := by
  have hlen := h.payload_length
  obtain ⟨t, pad, ht, -, rfl⟩ := h
  exact ⟨show 32768 + t < 65536 by omega, by omega⟩

/-- a text with its pattern -/
theorem textFill_room {m : NlMsg} (t : TextData) (hsize : m.nmSize ≤ PTRDIFF_MAX) (hroom : Room m (t.cfg ++ t.pattern).length) :
    ∃ m', textFill m (.text t) = (m', 0) ∧ Appended m m' (t.cfg ++ t.pattern) := by
  rw [List.length_append] at hroom
  obtain ⟨m1, h1, hw1⟩ := nlmsgAppend_room hsize (room_mono hroom (Nat.le_add_right _ _))
  have hl1 := hw1.len
  have hs1 := hw1.size
  have hr1 := hroom.size
  have hr2 := hroom.int
  obtain ⟨m2, h2, hw2⟩ := nlmsgAppend_room (m := m1) (a := t.pattern) (by omega) ⟨by omega, by omega⟩
  refine ⟨m2, ?_, hw1.append hw2⟩
  simp only [textFill, h1, lt_irrefl, if_false, h2]

/-- the data come to stand behind the header -/
theorem fillData_ready {m : NlMsg} {e : RtnlEmatch} {n : ℕ} (he : Ready n e) (hsize : m.nmSize ≤ PTRDIFF_MAX)
    (hroom : Room m e.payload.length) : ∃ m', fillData others m e = (m', 0) ∧ Appended m m' e.payload := by
  rcases he with ⟨hk, -⟩ | ⟨hk, t, ht⟩
  · rw [payload_container hk] at hroom ⊢
    have hops : rtnlEmatchLookupOps others e.eKind = some containerOps := if_pos hk
    simp only [fillData, hops, containerOps]
    exact nlmsgAppend_room hsize hroom
  · have hops : rtnlEmatchLookupOps others e.eKind = some textOps := by
      rw [hk]
      rfl
    rw [payload_text hk ht] at hroom ⊢
    simp only [fillData, hops, textOps, ht]
    exact textFill_room t hsize hroom

theorem putEmatch_eq {fill : NlMsg → NlMsg × ℤ} {m m1 m2 m3 : NlMsg} {eIndex : UInt16} {hdr : List UInt8} {a : ℕ}
    (hstart : nlaNestStart m ((eIndex.toNat : ℤ) + 1) = (m1, some a)) (h2 : nlmsgAppend m1 hdr 0 = (m2, 0))
    (h3 : fill m2 = (m3, 0)) : putEmatch fill m eIndex hdr = ((nlaNestEnd m3 a).1, 0) := by
  rw [putEmatch, hstart, inNest_some, h2, thenPut_ok, h3, thenPut_ok]

/-- **One match**, of which the data come to stand behind the header -/
theorem put_one {m : NlMsg} (hm : Tidy m) (fill : NlMsg → NlMsg × ℤ) (eIndex : UInt16) {hdr bytes : List UInt8}
    (hhdr : hdr.length = 8) (hsize : 4 + align4 (hdr ++ bytes).length ≤ 65535) (hroom : Room m (4 + align4 (hdr ++ bytes).length))
    (hfill : ∀ m, Tidy m → Room m bytes.length → ∃ m', fill m = (m', 0) ∧ Appended m m' bytes) :
    ∃ t pad m', t < 32768 ∧ pad.length = align4 (hdr ++ bytes).length - (hdr ++ bytes).length ∧
      putEmatch fill m eIndex hdr = (m', 0) ∧ Wrote m m' (encLeaves [⟨32768 + t, (hdr ++ bytes) ++ pad⟩]) := by
  have hge := le_align4 (hdr ++ bytes).length
  have hbody : (hdr ++ bytes).length = 8 + bytes.length := by rw [List.length_append, hhdr]
  obtain ⟨t, ht, m1, hstart, hw1⟩ := nlaNestStart_any hm ((eIndex.toNat : ℤ) + 1)
    (room_mono hroom (Nat.le_add_right 4 _))
  have hroom1 : Room m1 (align4 (hdr ++ bytes).length) :=
    room_after hw1 (by rw [nlaHeader_length]; exact hroom)
  obtain ⟨m2, h2, hw2⟩ := nlmsgAppend_room (a := hdr) hw1.tidy.size (room_mono hroom1 (by omega))
  have hl2 := hw2.len
  have hs2 := hw2.size
  have hr1 := hroom1.size
  have hr2 := hroom1.int
  have hsz := hw1.tidy.size
  have hmod := hw1.tidy.mod
  rw [hhdr] at hl2
  obtain ⟨m3, h3, hw3⟩ := hfill m2 ⟨by omega, by omega, by omega⟩ ⟨by omega, by omega⟩
  have hne : hdr ++ bytes ≠ [] := by
    intro h
    rw [h] at hbody
    simp at hbody
    omega
  obtain ⟨pad, m4, hpad, hend, hw4⟩ := nest_bytes hw1 (hw2.append hw3) hne hsize hroom1
  refine ⟨t, pad, m4, ht, hpad, ?_, hw4⟩
  rw [putEmatch_eq hstart h2 h3, hend]

/-- **One match.** -/
theorem fill_one {m : NlMsg} (hm : Tidy m) {e : RtnlEmatch} {n : ℕ} (he : Ready n e) (hsize : matchSize e ≤ 65535)
    (hroom : Room m (matchSize e)) :
    ∃ l m', fillEmatch others m e = (m', 0) ∧ LeafOf e l ∧ Wrote m m' (encLeaves [l]) := by
  obtain ⟨t, pad, m', ht, hpad, hput, hw⟩ := put_one hm (fun msg => fillData others msg e) e.eIndex (hdr_length e) hsize hroom
    fun m2 hm2 hroom2 => fillData_ready others he hm2.size hroom2
  exact ⟨_, m', hput, ⟨t, pad, ht, hpad, rfl⟩, hw⟩

/-- the bytes of a table -/
def tableSize (es : List RtnlEmatch) : ℕ := (es.map matchSize).sum

theorem tableSize_cons (e : RtnlEmatch) (es : List RtnlEmatch) : tableSize (e :: es) = matchSize e + tableSize es := by
  rw [tableSize, List.map_cons, List.sum_cons]
  rfl

theorem leaves_length {es : List RtnlEmatch} {ls : List Leaf} (h : List.Forall₂ LeafOf es ls) :
    (encLeaves ls).length = tableSize es := by
  induction h with
  | nil => rfl
  | cons hl _ ih =>
    rw [encLeaves_cons, List.length_append, hl.enc_length, ih]
    rfl

theorem leaves_wf {es : List RtnlEmatch} {ls : List Leaf} (h : List.Forall₂ LeafOf es ls) (hsize : tableSize es ≤ 65535) :
    ∀ l ∈ ls, l.WF := by
  induction h with
  | nil =>
    intro l hl
    cases hl
  | @cons e x es xs hx _ ih =>
    rw [tableSize_cons] at hsize
    intro l hl
    rcases List.mem_cons.1 hl with rfl | hl
    · exact hx.wf (by omega)
    · exact ih (by omega) l hl

/-- **The whole table.** -/
theorem fill_all {es : List RtnlEmatch} {n : ℕ} (hes : ∀ e ∈ es, Ready n e) {m : NlMsg} (hm : Tidy m)
    (hsize : tableSize es ≤ 65535) (hroom : Room m (tableSize es)) :
    ∃ ls m', fillAll others es m = (m', 0) ∧ List.Forall₂ LeafOf es ls ∧ Wrote m m' (encLeaves ls) := by
  induction es generalizing m with
  | nil => exact ⟨[], m, rfl, List.Forall₂.nil, Wrote.nil hm⟩
  | cons e es ih =>
    rw [tableSize_cons] at hsize hroom
    obtain ⟨l, m1, h1, hl, hw1⟩ := fill_one others hm (hes e List.mem_cons_self) (by omega)
      (room_mono hroom (Nat.le_add_right _ _))
    have hlen : (encLeaves [l]).length = matchSize e := by
      rw [encLeaves_cons, encLeaves_nil, List.append_nil, hl.enc_length]
    obtain ⟨ls, m2, h2, hls, hw2⟩ := ih (fun x hx => hes x (List.mem_cons_of_mem e hx)) hw1.tidy (by omega)
      (room_after hw1 (by rw [hlen]; exact hroom))
    refine ⟨l :: ls, m2, ?_, List.Forall₂.cons hl hls, ?_⟩
    · rw [fillAll, h1, thenPut_ok, h2]
    · have himage := encLeaves_append [l] ls
      rw [List.singleton_append] at himage
      rw [himage]
      exact hw1.append hw2

/-! ## What is read -/

/-- what the reader makes of a match: it does not know the number -/
def RtnlEmatch.bare (e : RtnlEmatch) : RtnlEmatch :=
  { e with eIndex := 0, eData := if e.isContainer then .ref (containerRef e) else e.eData }

theorem ofNat_getU16 {buf : Mem} {p : ℕ} {v : UInt16} (h : Seg buf p (u16Bytes v.toNat)) :
    UInt16.ofNat (getU16 buf p) = v := by
  have hlt := v.toNat_lt
  rw [h.getU16, Nat.mod_eq_of_lt hlt, UInt16.ofNat_toNat]

/-- **The configuration of a text** is read as it was written. -/
theorem textParse_cfg {buf : Mem} {data : ℕ} (len : ℕ) {t : TextData} (h : Seg buf data (t.cfg ++ t.pattern))
    (hlen : TEXT_HDRLEN + t.pattern.length ≤ len) : textParse buf data len = .ok (.text t) := by
  obtain ⟨hcfg, hpat⟩ := seg_append.1 h
  rw [cfg_length] at hpat
  obtain ⟨halgo, h1⟩ := seg_append.1 hcfg
  obtain ⟨hfrom, h2⟩ := seg_append.1 h1
  obtain ⟨hto, h3⟩ := seg_append.1 h2
  obtain ⟨hplen, h4⟩ := seg_append.1 h3
  simp only [t.algo_len, u16Bytes_length, add_assoc, Nat.reduceAdd] at hfrom hto hplen h4
  have hpl : getU16 buf (data + 20) = t.pattern.length := by
    rw [hplen.getU16, Nat.mod_eq_of_lt t.pattern_len]
  have hlay : buf (data + 22) = t.layers := h4 0 (by simp)
  have hpad : buf (data + 23) = t.pad := h4 1 (by simp)
  have halgo' : readBytes buf data 16 = t.algo := by
    rw [← t.algo_len]
    exact halgo.readBytes
  have hpat' : readBytes buf (data + TEXT_HDRLEN) (getU16 buf (data + 20)) = t.pattern := by
    rw [hpl]
    exact hpat.readBytes
  have hfit : ¬ len - TEXT_HDRLEN < getU16 buf (data + 20) := by
    rw [hpl]
    omega
  rw [textParse, if_neg hfit]
  congr 2
  exact TextData.ext halgo' (ofNat_getU16 hfrom) (ofNat_getU16 hto) hlay hpad hpat'

/-- **One match.** -/
theorem parse_one {buf : Mem} {n a : ℕ} {index : List RtnlEmatch} {e : RtnlEmatch} {l : Leaf} (he : Ready n e)
    (hn : n ≤ 65536) (hl : LeafOf e l) (hat : At buf a l) (hidx : index.length < n) :
    parseMatch others buf n index a = .ok (index ++ [e.bare]) := by
  have hlen := hat.len
  have hsize := hl.payload_length
  have hge := le_align4 (e.hdr ++ e.payload).length
  have hdata := hat.data
  obtain ⟨t, pad, -, -, rfl⟩ := hl
  have hbody : (e.hdr ++ e.payload).length = 8 + e.payload.length := by rw [List.length_append, hdr_length]
  rw [matchSize] at hsize
  have hlt : nlaLen buf a < 65536 := by
    have := getU16_lt buf a
    rw [nlaLen, nlaLenField]
    omega
  have h64 := toU64_of_nonneg (x := nlaLen buf a) (by omega) (by omega)
  obtain ⟨hseg, -⟩ := seg_append.1 hdata
  obtain ⟨hhdr, hpay⟩ := seg_append.1 hseg
  rw [hdr_length] at hpay
  obtain ⟨hid, h1⟩ := seg_append.1 hhdr
  obtain ⟨hkind, h2⟩ := seg_append.1 h1
  obtain ⟨hflags, -⟩ := seg_append.1 h2
  simp only [u16Bytes_length, add_assoc, Nat.reduceAdd] at hkind hflags
  have hshort : ¬ toU64 (nlaLen buf a) < 8 := by omega
  rw [parseMatch, if_neg hshort, if_neg (not_le.2 hidx)]
  simp only [ofNat_getU16 hid, ofNat_getU16 hkind, ofNat_getU16 hflags]
  rcases he with ⟨hk, href⟩ | ⟨hk, t', ht'⟩
  · have hcon : e.isContainer = true := decide_eq_true hk
    have hpl : e.payload.length = 4 := by rw [payload_container hk, u32Bytes_length]
    rw [payload_container hk] at hpay
    have hread : getU32 buf (nlaData a + 8) = containerRef e := by
      rw [hpay.getU32]
      omega
    have hops : rtnlEmatchLookupOps others e.eKind = some containerOps := if_pos hk
    have hmin : ¬ ((4 : ℕ) ≠ 0 ∧ toU64 (nlaLen buf a) - 8 < 4) := by omega
    have hin : ¬ (e.eKind = TCF_EM_CONTAINER ∧ n ≤ getU32 buf (nlaData a + 8)) := by
      rw [hread]
      omega
    rw [if_neg hin, hops]
    simp only [containerOps, if_neg hmin, containerParse, hread]
    rw [RtnlEmatch.bare, if_pos hcon]
  · have hcon : ¬ e.isContainer = true := by
      rw [RtnlEmatch.isContainer, hk]
      decide
    have hpl : e.payload.length = TEXT_HDRLEN + t'.pattern.length := by
      rw [payload_text hk ht', List.length_append, cfg_length]
    rw [payload_text hk ht'] at hpay
    have hops : rtnlEmatchLookupOps others e.eKind = some textOps := by
      rw [hk]
      rfl
    have hparse := textParse_cfg (toU64 (nlaLen buf a) - 8) hpay (by omega)
    have hmin : ¬ (TEXT_HDRLEN ≠ 0 ∧ toU64 (nlaLen buf a) - 8 < TEXT_HDRLEN) := by omega
    have hin : ¬ (e.eKind = TCF_EM_CONTAINER ∧ n ≤ getU32 buf (nlaData a + 8)) := by
      rw [hk]
      rintro ⟨h, -⟩
      exact absurd h (by decide)
    rw [if_neg hin, hops]
    simp only [textOps, if_neg hmin, hparse]
    rw [RtnlEmatch.bare, if_neg hcon, ht']

/-- **The whole table.** -/
theorem parse_all {buf : Mem} {n : ℕ} (hn : n ≤ 65536) {es : List RtnlEmatch} {ls : List Leaf} {offs : List ℕ}
    (hes : ∀ e ∈ es, Ready n e) (hl : List.Forall₂ LeafOf es ls) (hat : List.Forall₂ (At buf) offs ls)
    (index : List RtnlEmatch) (hidx : index.length + es.length ≤ n) :
    offs.foldlM (parseMatch others buf n) index = .ok (index ++ es.map RtnlEmatch.bare) := by
  induction hl generalizing offs index with
  | nil =>
    cases hat
    rw [List.map_nil, List.append_nil]
    rfl
  | @cons e l es ls hleaf _ ih =>
    cases hat with
    | @cons a _ offs _ hhead hrest =>
      rw [List.length_cons] at hidx
      rw [List.foldlM_cons, parse_one others (hes e List.mem_cons_self) hn hleaf hhead (by omega)]
      have hmore := ih (fun x hx => hes x (List.mem_cons_of_mem e hx)) hrest (index ++ [e.bare])
        (by rw [List.length_append, List.length_singleton]; omega)
      rw [List.append_assoc, List.singleton_append] at hmore
      rw [List.map_cons]
      exact hmore

/-! ## Sizes -/

/-- the bytes a sequence takes, with everything below -/
def wire : Ematches → ℕ
  | .nil => 0
  | .cons e childs next => matchSize e + wire childs + wire next

theorem matchSize_content (e : RtnlEmatch) : matchSize e.content = matchSize e := by
  have hpay : e.content.payload.length = e.payload.length := by
    by_cases hk : e.eKind = TCF_EM_CONTAINER
    · have hk' : e.content.eKind = TCF_EM_CONTAINER := hk
      rw [payload_container hk, payload_container hk', u32Bytes_length, u32Bytes_length]
    · have hc : e.isContainer = false := decide_eq_false hk
      have hc' : e.content.isContainer = false := hc
      have hdata : e.content.eData = e.eData := by
        rw [RtnlEmatch.content, hc]
        rfl
      rw [RtnlEmatch.payload, RtnlEmatch.payload, hdata, hc, hc']
  rw [matchSize, matchSize, List.length_append, List.length_append, hdr_length, hdr_length, hpay]

theorem matchSize_text {e : RtnlEmatch} {t : TextData} (h : e.eKind = TCF_EM_TEXT) (ht : e.eData = .text t) :
    matchSize e = 4 + align4 (8 + (TEXT_HDRLEN + t.pattern.length)) := by
  rw [matchSize, List.length_append, hdr_length, payload_text h ht, List.length_append, cfg_length]

theorem wire_content (l : Ematches) : wire l.content = wire l := by
  induction l with
  | nil => rfl
  | cons e childs next ihc ihn => rw [content_cons, wire, wire, matchSize_content, ihc, ihn]

theorem tableSize_append (as bs : List RtnlEmatch) : tableSize (as ++ bs) = tableSize as + tableSize bs := by
  rw [tableSize, List.map_append, List.sum_append]
  rfl

/-- the table has everything -/
theorem tableSize_flat {l : Ematches} (hw : WellBuilt l) : tableSize l.flat = wire l := by
  induction l with
  | nil => rfl
  | cons e childs next ihc ihn =>
    obtain ⟨hkind, -, hnext⟩ := hw
    have hn := ihn hnext
    rw [flat, tableSize_append] at hn ⊢
    have hlevel : tableSize (Ematches.cons e childs next).level = matchSize e + tableSize next.level :=
      tableSize_cons e next.level
    have hbelow : tableSize (Ematches.cons e childs next).deeper = wire childs + tableSize next.deeper := by
      rw [deeper, tableSize_append]
      rcases hkind with ⟨hk, -, hwc⟩ | ⟨hk, -, hnil⟩
      · have hc : e.isContainer = true := decide_eq_true hk
        have hin := ihc hwc
        rw [flat] at hin
        rw [if_pos hc, hin]
      · have hc : ¬ e.isContainer = true := by
          rw [RtnlEmatch.isContainer, hk]
          decide
        rw [if_neg hc, hnil]
        rfl
    rw [hlevel, hbelow, wire]
    omega

theorem length_le_tableSize (es : List RtnlEmatch) : es.length * 12 ≤ tableSize es := by
  induction es with
  | nil => exact Nat.le_of_eq (Nat.zero_mul 12)
  | cons e es ih =>
    have hge := le_align4 (e.hdr ++ e.payload).length
    rw [List.length_append, hdr_length] at hge
    rw [tableSize_cons, List.length_cons, matchSize, List.length_append, hdr_length]
    omega

omit [HostOrder] in
/-- what is placed in a table can be written -/
theorem ready_of_placed {table : List RtnlEmatch} {pos : ℕ} {l : Ematches} (hw : WellBuilt l) (hp : Placed table pos l) :
    ∀ e ∈ l.flat, Ready table.length e := by
  induction l generalizing pos with
  | nil =>
    intro e he
    cases he
  | cons e childs next ihc ihn =>
    obtain ⟨hkind, -, hnext⟩ := hw
    obtain ⟨-, hchilds, hrest⟩ := hp
    have hn := ihn hnext hrest
    have hself : Ready table.length e ∧ ∀ x ∈ (if e.isContainer then childs.level ++ childs.deeper else []),
        Ready table.length x := by
      rcases hkind with ⟨hk, hne, hwc⟩ | ⟨hk, ht, -⟩
      · have hc : e.isContainer = true := decide_eq_true hk
        have hcp := hchilds hc
        refine ⟨Or.inl ⟨hk, ?_⟩, ?_⟩
        · cases childs with
          | nil => exact absurd rfl hne
          | cons x _ _ => exact (List.getElem?_eq_some_iff.1 hcp.1).1
        · rw [if_pos hc]
          exact ihc hwc hcp
      · have hc : ¬ e.isContainer = true := by
          rw [RtnlEmatch.isContainer, hk]
          decide
        refine ⟨Or.inr ⟨hk, ht⟩, ?_⟩
        rw [if_neg hc]
        intro x hx
        cases hx
    intro x hx
    rw [flat, level, deeper, List.cons_append, List.mem_cons, List.mem_append, List.mem_append] at hx
    rcases hx with rfl | hx | hx | hx
    · exact hself.1
    · exact hn x (List.mem_append_left _ hx)
    · exact hself.2 x hx
    · exact hn x (List.mem_append_right _ hx)

/-! ## The tree -/

/-- the attribute with the number of matches -/
def hdrLeaf (nmatches : ℕ) (progid : UInt16) : Leaf := ⟨TCA_EMATCH_TREE_HDR, treeHdr nmatches progid⟩

/-- the attribute with the table -/
def listLeaf (ls : List Leaf) : Leaf := ⟨32768 + TCA_EMATCH_TREE_LIST, encLeaves ls⟩

theorem hdrLeaf_length (nmatches : ℕ) (progid : UInt16) : (hdrLeaf nmatches progid).payload.length = 4 := by
  simp only [hdrLeaf, treeHdr, List.length_append, u16Bytes_length]

theorem hdrLeaf_wf (nmatches : ℕ) (progid : UInt16) : (hdrLeaf nmatches progid).WF :=
  ⟨show 1 < 65536 by decide, by rw [hdrLeaf_length]; decide⟩

theorem hdrLeaf_enc (nmatches : ℕ) (progid : UInt16) : (encLeaves [hdrLeaf nmatches progid]).length = 8 := by
  rw [encLeaves_cons, encLeaves_nil, List.append_nil, encLeaf_length, hdrLeaf_length]
  rfl

theorem hdrLeaf_read {buf : Mem} {pos nmatches : ℕ} {progid : UInt16} (hat : At buf pos (hdrLeaf nmatches progid))
    (hn : nmatches < 65536) :
    getU16 buf (nlaData pos) = nmatches ∧ UInt16.ofNat (getU16 buf (nlaData pos + 2)) = progid := by
  obtain ⟨h1, h2⟩ := seg_append.1 hat.data
  rw [u16Bytes_length] at h2
  exact ⟨h1.getU16.trans (Nat.mod_eq_of_lt hn), ofNat_getU16 h2⟩

/-- the attributes of a tree pass the policy -/
theorem treePolicy_ok {buf : Mem} {nmatches pos : ℕ} {progid : UInt16} {l : Leaf}
    (hl : l = hdrLeaf nmatches progid ∨ ∃ ls, l = listLeaf ls) (hat : At buf pos l) :
    0 ≤ validateNla buf pos TCA_EMATCH_TREE_MAX treePolicy := by
  have htype := hat.type
  have hlen := hat.len
  rcases hl with rfl | ⟨ls, rfl⟩
  · rw [hdrLeaf_length] at hlen
    have hone : nlaType buf pos = 1 := htype
    have hpol : treePolicy 1 = ⟨.unspec, 4, 0⟩ := rfl
    simp only [validateNla, hone, hlen, hpol]
    simp [TCA_EMATCH_TREE_MAX, toU32]
  · have htwo : nlaType buf pos = 2 := htype.trans (show (32768 + TCA_EMATCH_TREE_LIST) % 16384 = 2 by decide)
    have hpol : treePolicy 2 = ⟨.nested, 0, 0⟩ := rfl
    simp only [validateNla, htwo, hpol, nlaAttrMinlen]
    simp [TCA_EMATCH_TREE_MAX]

/-- the outer nest with its header only -/
theorem parse_unlisted {buf : Mem} {pos t nmatches : ℕ} {progid : UInt16}
    (hat : At buf pos ⟨32768 + t, encLeaves [hdrLeaf nmatches progid]⟩) (hn : nmatches < 65536) (n : ℕ) :
    rtnlEmatchParseAttr others n buf pos =
      some (if nmatches = 0 then .ok none else .error (-NLE_MISSING_ATTR)) := by
  have hmem : ∀ l ∈ [hdrLeaf nmatches progid], l = hdrLeaf nmatches progid := by simp
  have hok : ∀ l ∈ [hdrLeaf nmatches progid], ∀ p, At buf p l → 0 ≤ validateNla buf p TCA_EMATCH_TREE_MAX treePolicy :=
    fun l hl p hp => treePolicy_ok (Or.inl (hmem l hl)) hp
  obtain ⟨tb, hparse, hidx⟩ := parseNested_leaves hat (fun l hl => hmem l hl ▸ hdrLeaf_wf nmatches progid) hok
    (by rw [hdrLeaf_enc]; decide)
  obtain ⟨thdr, hthdr, hath⟩ := hidx TCA_EMATCH_TREE_HDR (by decide)
  have hnone : tb TCA_EMATCH_TREE_LIST = none := hidx TCA_EMATCH_TREE_LIST (by decide)
  obtain ⟨hnm, -⟩ := hdrLeaf_read hath hn
  simp only [rtnlEmatchParseAttr, hparse, lt_irrefl, if_false, hthdr, hnm, hnone]
  by_cases h0 : nmatches = 0
  · rw [if_pos h0, if_pos h0]
  · rw [if_neg h0, if_neg h0]

/-- the outer nest with header and table -/
theorem parse_listed {buf : Mem} {pos t : ℕ} {progid : UInt16} {es : List RtnlEmatch} {ls : List Leaf}
    (hat : At buf pos ⟨32768 + t, encLeaves [hdrLeaf es.length progid, listLeaf ls]⟩)
    (hes : ∀ e ∈ es, Ready es.length e) (hl : List.Forall₂ LeafOf es ls) (hne : es ≠ [])
    (hsize : 4 + tableSize es ≤ 65535) (n : ℕ) :
    rtnlEmatchParseAttr others n buf pos = (linkTree (es.map RtnlEmatch.bare) n 0).map fun r =>
      if r.2 < 0 then .error r.2 else .ok (some ⟨progid, r.1⟩) := by
  have hcount := length_le_tableSize es
  have henc := leaves_length hl
  have hpos := List.length_pos_iff.2 hne
  have hlwf : (listLeaf ls).WF := ⟨show 32768 + 2 < 65536 by decide, show 4 + (encLeaves ls).length ≤ 65535 by omega⟩
  have hmem : ∀ l ∈ [hdrLeaf es.length progid, listLeaf ls], l = hdrLeaf es.length progid ∨ l = listLeaf ls := by simp
  have hwf : ∀ l ∈ [hdrLeaf es.length progid, listLeaf ls], l.WF := by
    intro l hin
    rcases hmem l hin with rfl | rfl
    · exact hdrLeaf_wf _ _
    · exact hlwf
  have hok : ∀ l ∈ [hdrLeaf es.length progid, listLeaf ls], ∀ p, At buf p l →
      0 ≤ validateNla buf p TCA_EMATCH_TREE_MAX treePolicy := by
    intro l hin p hp
    exact treePolicy_ok ((hmem l hin).imp id fun h => ⟨ls, h⟩) hp
  have hboth : (encLeaves [hdrLeaf es.length progid, listLeaf ls]).length < 2147483648 := by
    have hlt := align4_lt (4 + (encLeaves ls).length)
    have h8 := hdrLeaf_enc es.length progid
    have hpair := encLeaves_append [hdrLeaf es.length progid] [listLeaf ls]
    rw [List.singleton_append] at hpair
    rw [hpair, List.length_append, h8, encLeaves_cons, encLeaves_nil, List.append_nil, encLeaf_length]
    simp only [listLeaf]
    omega
  obtain ⟨tb, hparse, hidx⟩ := parseNested_leaves hat hwf hok hboth
  have hlast1 : lastOf [hdrLeaf es.length progid, listLeaf ls] TCA_EMATCH_TREE_HDR = some (hdrLeaf es.length progid) := by
    have hother : ¬ (listLeaf ls).type % 16384 = TCA_EMATCH_TREE_HDR := by
      simp only [listLeaf]
      decide
    rw [← List.singleton_append, lastOf_snoc, if_neg hother]
    rfl
  have hlast2 : lastOf [hdrLeaf es.length progid, listLeaf ls] TCA_EMATCH_TREE_LIST = some (listLeaf ls) := by
    have hthis : (listLeaf ls).type % 16384 = TCA_EMATCH_TREE_LIST := by
      simp only [listLeaf]
      decide
    rw [← List.singleton_append, lastOf_snoc, if_pos hthis]
  have h1 := hidx TCA_EMATCH_TREE_HDR (by decide)
  have h2 := hidx TCA_EMATCH_TREE_LIST (by decide)
  rw [hlast1] at h1
  rw [hlast2] at h2
  obtain ⟨thdr, hthdr, hath⟩ := h1
  obtain ⟨list, hlist, hatl⟩ := h2
  obtain ⟨hnm, hprog⟩ := hdrLeaf_read hath (by omega)
  -- the number of matches is in line with the bytes
  have hlen : nlaLen buf list = tableSize es := by
    have h := hatl.len
    simp only [listLeaf] at h
    rw [h, henc]
  have h12 : nlaTotalSize 8 = 12 := by decide
  have hsane : ¬ nlaLen buf list / nlaTotalSize 8 < es.length := by
    rw [hlen, h12]
    omega
  have hoffs := nested_leaves hatl (leaves_wf hl (by omega)) (by omega)
  have hall := parse_all others (by omega) hes hl hoffs [] (by simp)
  have hcnt : ¬ (es.map RtnlEmatch.bare).length ≠ es.length := by simp
  simp only [rtnlEmatchParseAttr, hparse, lt_irrefl, if_false, hthdr, hnm, hprog, hlist]
  rw [if_neg (by omega), if_neg hsane, hall]
  simp only [List.nil_append, if_neg hcnt]

theorem fillAttr_eq {m m1 m2 m3 m4 : NlMsg} {attrid : ℤ} {tree : RtnlEmatchTree} {l : Ematches} {nmatches top list : ℕ}
    (hup : updateContainerIndex tree.etList 0 = .ok (l, nmatches)) (h1 : nlaNestStart m attrid = (m1, some top))
    (h2 : nlaPut m1 TCA_EMATCH_TREE_HDR 4 (treeHdr nmatches tree.etProgid) = (m2, 0))
    (h3 : nlaNestStart m2 TCA_EMATCH_TREE_LIST = (m3, some list)) (h4 : fillAll others l.flat m3 = (m4, 0)) :
    rtnlEmatchFillAttr others m attrid tree = ((nlaNestEnd (nlaNestEnd m4 list).1 top).1, 0) := by
  rw [← fillSequence_eq] at h4
  rw [rtnlEmatchFillAttr, hup]
  dsimp only
  rw [h1, inNest_some, h2, thenPut_ok, h3, inNest_some, h4, thenPut_ok]

/-- **The writer**, up to the point where the nests are closed -/
theorem fill_tree {m : NlMsg} (hm : Tidy m) (attrid : ℤ) {tree : RtnlEmatchTree} (hw : WellBuilt tree.etList)
    (hsize : wire tree.etList ≤ 65535) (hroom : Room m (16 + wire tree.etList)) :
    ∃ l ls t m1 m2 m3 m4, l.content = tree.etList.content ∧ Placed l.flat 0 l ∧ List.Forall₂ LeafOf l.flat ls ∧ t < 32768 ∧
      Wrote m m1 (nlaHeader 4 (32768 + t)) ∧ Wrote m1 m2 (encLeaves [hdrLeaf l.flat.length tree.etProgid]) ∧
      Wrote m2 m3 (nlaHeader 4 (32768 + TCA_EMATCH_TREE_LIST)) ∧ Wrote m3 m4 (encLeaves ls) ∧
      rtnlEmatchFillAttr others m attrid tree = ((nlaNestEnd (nlaNestEnd m4 m2.nlmsgLen).1 m.nlmsgLen).1, 0) := by
  obtain ⟨l, hup, hcontent, hplaced⟩ := updated_placed hw
  have hwl : WellBuilt l := wellBuilt_congr hcontent.symm hw
  have hbytes : tableSize l.flat = wire tree.etList := by
    rw [tableSize_flat hwl, ← wire_content, hcontent, wire_content]
  have hread := ready_of_placed hwl hplaced
  obtain ⟨t, ht, m1, hstart, hw1⟩ := nlaNestStart_any hm attrid (room_mono hroom (by omega))
  have hroom1 : Room m1 (12 + wire tree.etList) :=
    room_after hw1 (by rw [nlaHeader_length]; exact room_mono hroom (by omega))
  obtain ⟨m2, hput, hw2⟩ := put_leaf hw1.tidy (hdrLeaf_wf l.flat.length tree.etProgid)
    (room_mono hroom1 (by rw [hdrLeaf_enc]; omega))
  have hroom2 : Room m2 (4 + wire tree.etList) :=
    room_after hw2 (by rw [hdrLeaf_enc]; exact room_mono hroom1 (by omega))
  obtain ⟨m3, hlist, hw3⟩ := nlaNestStart_room hw2.tidy TCA_EMATCH_TREE_LIST (by decide) (room_mono hroom2 (by omega))
  have hroom3 : Room m3 (wire tree.etList) := room_after hw3 (by rw [nlaHeader_length]; exact hroom2)
  obtain ⟨ls, m4, hfill, hls, hw4⟩ := fill_all others hread hw3.tidy (by omega) (by rw [hbytes]; exact hroom3)
  rw [hdrLeaf_length] at hput
  simp only [hdrLeaf, Nat.cast_ofNat] at hput
  exact ⟨l, ls, t, m1, m2, m3, m4, hcontent, hplaced, hls, ht, hw1, hw2, hw3, hw4,
    fillAttr_eq others hup hstart hput hlist hfill⟩

/-- the tree comes back: writing succeeds, and reading, with enough steps to link it, finds its content -/
def RoundTrips (m : NlMsg) (attrid : ℤ) (tree : RtnlEmatchTree) : Prop :=
  ∃ m' l, rtnlEmatchFillAttr others m attrid tree = (m', 0) ∧ l.content = tree.etList.content ∧
    ∀ n, tree.etList.size < n → rtnlEmatchParseAttr others n m'.buf m.nlmsgLen = some (.ok (some ⟨tree.etProgid, l⟩))

omit [HostOrder] in
theorem content_bare (e : RtnlEmatch) : e.bare.content = e.content := by
  by_cases hk : e.eKind = TCF_EM_CONTAINER
  · simp only [RtnlEmatch.content, RtnlEmatch.bare, RtnlEmatch.isContainer, hk, decide_true, if_true]
  · simp only [RtnlEmatch.content, RtnlEmatch.bare, RtnlEmatch.isContainer, hk, decide_false, Bool.false_eq_true, if_false]

omit [HostOrder] in
theorem containerRef_bare {e : RtnlEmatch} (h : e.isContainer = true) : containerRef e.bare = containerRef e := by
  rw [containerRef, RtnlEmatch.bare, if_pos h]
  rfl

/-- **Round trip.** A tree that is not empty and whose encoding fits into an attribute comes back. -/
theorem ematch_round_trip {m : NlMsg} (hm : Tidy m) (attrid : ℤ) {tree : RtnlEmatchTree} (hw : WellBuilt tree.etList)
    (hne : tree.etList ≠ .nil) (hsize : 16 + wire tree.etList ≤ 65535) (hroom : Room m (16 + wire tree.etList)) :
    RoundTrips others m attrid tree := by
  obtain ⟨l, ls, t, m1, m2, m3, m4, hcontent, hplaced, hls, ht, hw1, hw2, hw3, hw4, hfill⟩ :=
    fill_tree others hm attrid hw (by omega) hroom
  have hwl : WellBuilt l := wellBuilt_congr hcontent.symm hw
  have hlne : l ≠ .nil := by
    intro h
    rw [h] at hcontent
    exact hne (content_nil_iff.1 hcontent.symm)
  have hbytes : tableSize l.flat = wire tree.etList := by
    rw [tableSize_flat hwl, ← wire_content, hcontent, wire_content]
  have henc := leaves_length hls
  have hflat : l.flat ≠ [] := by
    cases l with
    | nil => exact absurd rfl hlne
    | cons e childs next => exact List.cons_ne_nil _ _
  have hlsne : ls ≠ [] := by
    rw [← List.length_pos_iff, ← hls.length_eq]
    exact List.length_pos_iff.2 hflat
  -- the nests are closed around what was written
  obtain ⟨m5, hend5, hw5⟩ := nest_end hw3 hw4 (encLeaves_ne_nil hlsne) (by omega)
  have hpair : Wrote m1 m5 (encLeaves [hdrLeaf l.flat.length tree.etProgid, listLeaf ls]) := by
    have himage := encLeaves_append [hdrLeaf l.flat.length tree.etProgid] [listLeaf ls]
    rw [List.singleton_append] at himage
    rw [himage]
    exact hw2.append hw5
  have hpairlen : (encLeaves [hdrLeaf l.flat.length tree.etProgid, listLeaf ls]).length = 12 + wire tree.etList := by
    have h2 := hw2.len
    have h5 := hw5.len
    have hp := hpair.len
    have hmod := encLeaves_mod ls
    have hone : (encLeaves [listLeaf ls]).length = 4 + (encLeaves ls).length := by
      rw [encLeaves_cons, encLeaves_nil, List.append_nil, encLeaf_length]
      simp only [listLeaf]
      exact align4_of_mod (by omega)
    have h8 := hdrLeaf_enc l.flat.length tree.etProgid
    simp only [listLeaf] at hone hp ⊢
    omega
  obtain ⟨m6, hend6, hw6⟩ := nest_end hw1 hpair (encLeaves_ne_nil (List.cons_ne_nil _ _)) (by omega)
  have hwf : Leaf.WF ⟨32768 + t, encLeaves [hdrLeaf l.flat.length tree.etProgid, listLeaf ls]⟩ :=
    ⟨show 32768 + t < 65536 by omega, show 4 + (encLeaves _).length ≤ 65535 by omega⟩
  have hat := (at_of_seg hwf hw6.seg).1
  refine ⟨m6, l.map RtnlEmatch.bare, ?_, ?_, ?_⟩
  · rw [hfill, hend5, hend6]
  · rw [content_map content_bare, hcontent]
  · intro n hn
    have hmapped : (l.map RtnlEmatch.bare).content = l.content := content_map content_bare l
    have hsteps : (l.map RtnlEmatch.bare).size < n := by
      rw [size_map, ← size_map RtnlEmatch.content, ← content, hcontent, content, size_map]
      exact hn
    have hmne : l.map RtnlEmatch.bare ≠ .nil := by
      rw [ne_eq, ← content_nil_iff, hmapped, content_nil_iff]
      exact hlne
    have hread : Placed (l.flat.map RtnlEmatch.bare) 0 (l.map RtnlEmatch.bare) :=
      placed_map (f := RtnlEmatch.bare) (fun _ => rfl) (fun _ h => containerRef_bare h) hplaced
    have hlink := link_placed (wellBuilt_congr hmapped.symm hwl) hmne hread hsteps
    rw [parse_listed others hat (ready_of_placed hwl hplaced) hls hflat (by omega), hlink]
    rfl

/-- **Trees that are lost.** Writing succeeds, but the list is dropped when its nest is closed. The reader takes an empty tree
for none, and misses the list of any other. -/
theorem ematch_lost {m : NlMsg} (hm : Tidy m) (attrid : ℤ) {tree : RtnlEmatchTree} (hw : WellBuilt tree.etList)
    (hsize : wire tree.etList ≤ 65535) (hroom : Room m (16 + wire tree.etList))
    (hdrop : tree.etList = .nil ∨ 65535 < 4 + wire tree.etList) :
    ∃ m', rtnlEmatchFillAttr others m attrid tree = (m', 0) ∧ ∀ n, rtnlEmatchParseAttr others n m'.buf m.nlmsgLen =
      some (if tree.etList = .nil then .ok none else .error (-NLE_MISSING_ATTR)) := by
  obtain ⟨l, ls, t, m1, m2, m3, m4, hcontent, -, hls, ht, hw1, hw2, hw3, hw4, hfill⟩ :=
    fill_tree others hm attrid hw hsize hroom
  have hwl : WellBuilt l := wellBuilt_congr hcontent.symm hw
  have hbytes : tableSize l.flat = wire tree.etList := by
    rw [tableSize_flat hwl, ← wire_content, hcontent, wire_content]
  have henc := leaves_length hls
  have hcount := length_le_tableSize l.flat
  have hnil : tree.etList = .nil ↔ l.flat.length = 0 := by
    rw [← content_nil_iff, ← hcontent, content_nil_iff]
    cases l with
    | nil => exact iff_of_true rfl rfl
    | cons e childs next => exact iff_of_false (by intro h; cases h) (Nat.succ_ne_zero _)
  have hgone : encLeaves ls = [] ∨ 65535 < 4 + (encLeaves ls).length := by
    rcases hdrop with h | h
    · left
      have hls0 : ls = [] := by
        rw [← List.length_eq_zero_iff, ← hls.length_eq]
        exact hnil.1 h
      rw [hls0, encLeaves_nil]
    · right
      omega
  have hw5 := nest_dropped hw2.tidy hw3 hw4 hgone
  have hhdr : Wrote m1 (nlaNestEnd m4 m2.nlmsgLen).1 (encLeaves [hdrLeaf l.flat.length tree.etProgid]) := by
    have h := hw2.append hw5
    rwa [List.append_nil] at h
  have h8 := hdrLeaf_enc l.flat.length tree.etProgid
  obtain ⟨m6, hend6, hw6⟩ := nest_end hw1 hhdr (encLeaves_ne_nil (List.cons_ne_nil _ _)) (by omega)
  have hwf : Leaf.WF ⟨32768 + t, encLeaves [hdrLeaf l.flat.length tree.etProgid]⟩ :=
    ⟨show 32768 + t < 65536 by omega, show 4 + (encLeaves _).length ≤ 65535 by omega⟩
  refine ⟨m6, ?_, ?_⟩
  · rw [hfill, hend6]
  · intro n
    rw [parse_unlisted others (at_of_seg hwf hw6.seg).1 (by omega)]
    exact congrArg some (if_congr hnil.symm rfl rfl)

/-! ## Samples -/

omit [HostOrder]

/-- a message of 70000 bytes, with nothing in it but its header -/
theorem sample_message : ∃ m, nlmsgAllocSize 70000 = some m ∧ Tidy m ∧ Room m 69000 := by
  obtain ⟨m, hm⟩ : ∃ m, nlmsgAllocSize 70000 = some m := ⟨_, rfl⟩
  have hfresh := fresh_alloc hm
  have hsize : m.nmSize = 70000 := by
    cases hm
    rfl
  exact ⟨m, hm, tidy_of_fresh hfresh, ⟨by rw [hfresh.len, hsize]; decide, by rw [hfresh.len]; decide⟩⟩

/-- a text with a pattern of this many bytes -/
def sampleText (len : ℕ) (h : len < 65536) : TextData :=
  ⟨List.replicate 16 0, List.length_replicate, 1, 2, 33, 0, List.replicate len 7, by rw [List.length_replicate]; exact h⟩

theorem sampleText_length (len : ℕ) (h : len < 65536) : (sampleText len h).pattern.length = len := List.length_replicate

/-- a text and, behind it, an inverted container with two texts -/
def sampleTree : RtnlEmatchTree :=
  let text : EData := .text (sampleText 5 (by decide))
  ⟨9, .cons ⟨1, TCF_EM_TEXT, 1, 0, text⟩ .nil
    (.cons ⟨2, TCF_EM_CONTAINER, 4, 0, .null⟩
      (.cons ⟨3, TCF_EM_TEXT, 2, 0, text⟩ .nil (.cons ⟨4, TCF_EM_TEXT, 0, 0, text⟩ .nil .nil)) .nil)⟩

theorem sampleTree_wellBuilt : WellBuilt sampleTree.etList :=
  ⟨Or.inr ⟨rfl, ⟨_, rfl⟩, rfl⟩, by decide,
    ⟨Or.inl ⟨rfl, by decide, Or.inr ⟨rfl, ⟨_, rfl⟩, rfl⟩, by decide, Or.inr ⟨rfl, ⟨_, rfl⟩, rfl⟩, by decide, trivial⟩,
      by decide, trivial⟩⟩

theorem ematch_round_trip_sample : ∃ m, nlmsgAllocSize 70000 = some m ∧ @RoundTrips ⟨false⟩ (fun _ => none) m 2 sampleTree := by
  obtain ⟨m, hm, htidy, hroom⟩ := sample_message
  have hwire : @wire ⟨false⟩ sampleTree.etList = 148 := by decide
  exact ⟨m, hm, @ematch_round_trip ⟨false⟩ _ m htidy 2 sampleTree sampleTree_wellBuilt (by decide) (by rw [hwire]; decide)
    (room_mono hroom (by rw [hwire]; decide))⟩

/-- a single text, long enough for the list to be dropped -/
def longTree : RtnlEmatchTree := ⟨9, .cons ⟨1, TCF_EM_TEXT, 0, 0, .text (sampleText 65496 (by decide))⟩ .nil .nil⟩

theorem longTree_wire [HostOrder] : wire longTree.etList = 65532 := by
  simp only [longTree, wire]
  rw [matchSize_text rfl rfl, sampleText_length]
  simp only [TEXT_HDRLEN, align4]

theorem longTree_wellBuilt : WellBuilt longTree.etList := ⟨Or.inr ⟨rfl, ⟨_, rfl⟩, rfl⟩, iff_of_true rfl rfl, trivial⟩

/-- neither the empty tree nor a tree with a long text comes back -/
theorem ematch_lost_sample : ∃ m, nlmsgAllocSize 70000 = some m ∧
    (WellBuilt .nil ∧ Room m (16 + @wire ⟨false⟩ .nil) ∧ ¬ @RoundTrips ⟨false⟩ (fun _ => none) m 2 ⟨9, .nil⟩) ∧
    (WellBuilt longTree.etList ∧ Room m (16 + @wire ⟨false⟩ longTree.etList) ∧
      ¬ @RoundTrips ⟨false⟩ (fun _ => none) m 2 longTree) := by
  let order : HostOrder := ⟨false⟩
  obtain ⟨m, hm, htidy, hroom⟩ := sample_message
  have hwire := longTree_wire
  -- a tree that is lost does not come back
  have hlost : ∀ tree : RtnlEmatchTree, WellBuilt tree.etList → wire tree.etList ≤ 65535 →
      (tree.etList = .nil ∨ 65535 < 4 + wire tree.etList) →
      Room m (16 + wire tree.etList) ∧ ¬ RoundTrips (fun _ => none) m 2 tree := by
    intro tree hw hsize hdrop
    have hfits := room_mono hroom (show 16 + wire tree.etList ≤ 69000 by omega)
    refine ⟨hfits, ?_⟩
    rintro ⟨m1, l, hfill1, -, hparse1⟩
    obtain ⟨m2, hfill2, hparse2⟩ := ematch_lost (fun _ => none) htidy 2 hw hsize hfits hdrop
    rw [hfill1] at hfill2
    cases hfill2
    have h1 := hparse1 (tree.etList.size + 1) (Nat.lt_succ_self _)
    rw [hparse2] at h1
    by_cases hnil : tree.etList = .nil
    · rw [if_pos hnil] at h1
      cases h1
    · rw [if_neg hnil] at h1
      cases h1
  refine ⟨m, hm, ⟨trivial, hlost ⟨9, .nil⟩ trivial (Nat.zero_le _) (Or.inl rfl)⟩, longTree_wellBuilt, ?_⟩
  exact hlost longTree longTree_wellBuilt (by omega) (Or.inr (by omega))

end Libnl.Ematch
