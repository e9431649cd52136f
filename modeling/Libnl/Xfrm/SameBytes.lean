/-
Structures of associations and policies that are read of two messages (`lib/xfrm/`).

The structures are read member by member, so that the same bytes make the same structure, wherever they stand. Where there is
a key, a string or a bitmap behind a structure, those bytes are meant, too; an attribute that holds what the structure in it
says is as long as that.

- `saInfoAt_same`, `spInfoAt_same` and their like: structures at two places with the same bytes.
- `Proper`: an attribute that holds the structure of its type.
- `readSaAttrs_same`, `readSpAttrs_same`: such attributes, read of two messages.
-/
import Mathlib.Tactic
import Libnl.Core.Window
import Libnl.Message.Twins
import Libnl.Xfrm.Policy
import Libnl.Xfrm.Sa

namespace Libnl.Xfrm

open Bytes Layout Msg Attr AttrStream Fields Validate Addr Window
open Twins

section

variable [HostOrder] {m m' : Mem} {p p' n : ℕ}

/-! ## The same bytes -/

omit [HostOrder] in
theorem addrAt_same (family : BitVec 16) (h : Same m m' p p' 16) : addrAt family m p = addrAt family m' p' := by
  have hbytes := (h.first (addrSize family) (addrSize_le family)).readBytes
  rw [addrAt, hbytes, addrAt]

theorem selAt_same (h : Same m m' p p' 56) : selAt m p = selAt m' p' := by
  have hfamily := (h.sub 40 2 (by decide)).u16At
  have hdaddr := addrAt_same (u16At m' (p' + 40)) (h.first 16 (by decide))
  have hsaddr := addrAt_same (u16At m' (p' + 40)) (h.sub 16 16 (by decide))
  have hprefixd := (h.sub 42 1 (by decide)).u8At
  have hprefixs := (h.sub 43 1 (by decide)).u8At
  have hproto := (h.sub 44 1 (by decide)).u8At
  have hdport := (h.sub 32 2 (by decide)).getBe16
  have hdmask := (h.sub 34 2 (by decide)).getBe16
  have hsport := (h.sub 36 2 (by decide)).getBe16
  have hsmask := (h.sub 38 2 (by decide)).getBe16
  have hifindex := (h.sub 48 4 (by decide)).u32At
  have huser := (h.sub 52 4 (by decide)).u32At
  simp only [selAt, hfamily, hdaddr, hsaddr, hprefixd, hprefixs, hproto, hdport, hdmask, hsport, hsmask, hifindex, huser]

theorem ltimeCfgAt_same (h : Same m m' p p' 64) : ltimeCfgAt m p = ltimeCfgAt m' p' := by
  have h0 := (h.first 8 (by decide)).u64At
  have hat : ∀ off, off + 8 ≤ 64 → u64At m (p + off) = u64At m' (p' + off) := fun off hoff => (h.sub off 8 hoff).u64At
  rw [ltimeCfgAt, h0, hat 8 (by decide), hat 16 (by decide), hat 24 (by decide), hat 32 (by decide), hat 40 (by decide),
    hat 48 (by decide), hat 56 (by decide), ltimeCfgAt]

theorem lifetimeCurAt_same (h : Same m m' p p' 32) : lifetimeCurAt m p = lifetimeCurAt m' p' := by
  have h0 := (h.first 8 (by decide)).u64At
  have hat : ∀ off, off + 8 ≤ 32 → u64At m (p + off) = u64At m' (p' + off) := fun off hoff => (h.sub off 8 hoff).u64At
  rw [lifetimeCurAt, h0, hat 8 (by decide), hat 16 (by decide), hat 24 (by decide), lifetimeCurAt]

theorem markAt_same (h : Same m m' p p' 8) : markAt m p = markAt m' p' := by
  have hv := (h.first 4 (by decide)).u32At
  have hm := (h.sub 4 4 (by decide)).u32At
  rw [markAt, hv, hm, markAt]

/-- a structure with a string behind it that lies within the window, too -/
theorem secCtxAt_same (h : Same m m' p p' n) (hn : 8 ≤ n) (hctx : 8 + (u16At m (p + 6)).toNat ≤ n) :
    secCtxAt m p = secCtxAt m' p' := by
  have hlen := (h.first 2 (by omega)).u16At
  have hexttype := (h.sub 2 2 (by omega)).u16At
  have halg := (h.sub 4 1 (by omega)).u8At
  have hdoi := (h.sub 5 1 (by omega)).u8At
  have hctxlen := (h.sub 6 2 (by omega)).u16At
  have hstring := (h.sub 8 (u16At m (p + 6)).toNat hctx).readBytes
  rw [secCtxAt, hstring, hlen, hexttype, halg, hdoi, hctxlen, secCtxAt]

theorem algoAt_same (h : Same m m' p p' n) (hn : 68 ≤ n) (hkey : 68 + keyBytes (u32At m (p + 64)) ≤ n) :
    algoAt m p = algoAt m' p' := by
  have hname := (h.first 64 (by omega)).readBytes
  have hlen := (h.sub 64 4 (by omega)).u32At
  have hbytes := (h.sub 68 (keyBytes (u32At m (p + 64))) hkey).readBytes
  rw [algoAt, hbytes, hname, hlen, algoAt]

theorem longAlgoAt_same (h : Same m m' p p' n) (hn : 72 ≤ n) (hkey : 72 + keyBytes (u32At m (p + 64)) ≤ n) :
    longAlgoAt m p = longAlgoAt m' p' ∧ u32At m (p + 68) = u32At m' (p' + 68) := by
  have hname := (h.first 64 (by omega)).readBytes
  have hlen := (h.sub 64 4 (by omega)).u32At
  have hbytes := (h.sub 72 (keyBytes (u32At m (p + 64))) hkey).readBytes
  refine ⟨?_, (h.sub 68 4 (by omega)).u32At⟩
  rw [longAlgoAt, hbytes, hname, hlen, longAlgoAt]

theorem encapAt_same (family : BitVec 16) (h : Same m m' p p' 24) : encapAt family m p = encapAt family m' p' := by
  have htype := (h.first 2 (by decide)).u16At
  have hsport := (h.sub 2 2 (by decide)).getBe16
  have hdport := (h.sub 4 2 (by decide)).getBe16
  have hoa := addrAt_same family (h.sub 8 16 (by decide))
  rw [encapAt, htype, hsport, hdport, hoa, encapAt]

theorem replayAt_same (h : Same m m' p p' 12) : replayAt m p = replayAt m' p' := by
  have hoseq := (h.first 4 (by decide)).u32At
  have hseq := (h.sub 4 4 (by decide)).u32At
  have hbitmap := (h.sub 8 4 (by decide)).u32At
  rw [replayAt, hoseq, hseq, hbitmap, replayAt]

theorem replayEsnAt_same (h : Same m m' p p' n) (hn : 24 ≤ n) (hbmp : 24 + 4 * (u32At m p).toNat ≤ n) :
    replayEsnAt m p = replayEsnAt m' p' := by
  have hlen := (h.first 4 (by omega)).u32At
  have hat : ∀ off, off + 4 ≤ 24 → u32At m (p + off) = u32At m' (p' + off) := fun off hoff =>
    (h.sub off 4 (by omega)).u32At
  have hbytes := (h.sub 24 (4 * (u32At m p).toNat) hbmp).readBytes
  rw [replayEsnAt, hbytes, hlen, hat 4 (by decide), hat 8 (by decide), hat 12 (by decide), hat 16 (by decide),
    hat 20 (by decide), replayEsnAt]

/-- **The fixed structure of an association** -/
theorem saInfoAt_same (h : Same m m' p p' 224) : saInfoAt m p = saInfoAt m' p' := by
  have hfamily := (h.sub 212 2 (by decide)).u16At
  have hsel := selAt_same (h.first 56 (by decide))
  have hdaddr := addrAt_same (u16At m' (p' + 212)) (h.sub 56 16 (by decide))
  have hsaddr := addrAt_same (u16At m' (p' + 212)) (h.sub 80 16 (by decide))
  have hspi := (h.sub 72 4 (by decide)).getBe32
  have hlft := ltimeCfgAt_same (h.sub 96 64 (by decide))
  have hcur := lifetimeCurAt_same (h.sub 160 32 (by decide))
  have h8 : ∀ off, off + 1 ≤ 224 → u8At m (p + off) = u8At m' (p' + off) := fun off hoff => (h.sub off 1 hoff).u8At
  have h32 : ∀ off, off + 4 ≤ 224 → u32At m (p + off) = u32At m' (p' + off) := fun off hoff => (h.sub off 4 hoff).u32At
  simp only [saInfoAt, hfamily, hsel, hdaddr, hsaddr, hspi, hlft, hcur, h8 76 (by decide), h32 192 (by decide),
    h32 196 (by decide), h32 200 (by decide), h32 204 (by decide), h32 208 (by decide), h8 214 (by decide),
    h8 215 (by decide), h8 216 (by decide)]

/-- **The fixed structure of a policy** -/
theorem spInfoAt_same (h : Same m m' p p' 168) : spInfoAt m p = spInfoAt m' p' := by
  have hsel := selAt_same (h.first 56 (by decide))
  have hlft := ltimeCfgAt_same (h.sub 56 64 (by decide))
  have hcur := lifetimeCurAt_same (h.sub 120 32 (by decide))
  have h8 : ∀ off, off + 1 ≤ 168 → u8At m (p + off) = u8At m' (p' + off) := fun off hoff => (h.sub off 1 hoff).u8At
  have h32 : ∀ off, off + 4 ≤ 168 → u32At m (p + off) = u32At m' (p' + off) := fun off hoff => (h.sub off 4 hoff).u32At
  rw [spInfoAt, hsel, hlft, hcur, h32 152 (by decide), h32 156 (by decide), h8 160 (by decide), h8 161 (by decide),
    h8 162 (by decide), h8 163 (by decide), spInfoAt]

theorem userTmplAt_same (h : Same m m' p p' 64) : userTmplAt m p = userTmplAt m' p' := by
  have hfamily := (h.sub 24 2 (by decide)).u16At
  have hdaddr := addrAt_same (u16At m' (p' + 24)) (h.first 16 (by decide))
  have hsaddr := addrAt_same (u16At m' (p' + 24)) (h.sub 28 16 (by decide))
  have hspi := (h.sub 16 4 (by decide)).getBe32
  have h8 : ∀ off, off + 1 ≤ 64 → u8At m (p + off) = u8At m' (p' + off) := fun off hoff => (h.sub off 1 hoff).u8At
  have h32 : ∀ off, off + 4 ≤ 64 → u32At m (p + off) = u32At m' (p' + off) := fun off hoff => (h.sub off 4 hoff).u32At
  simp only [userTmplAt, hfamily, hdaddr, hsaddr, hspi, h8 20 (by decide), h32 44 (by decide), h8 48 (by decide),
    h8 49 (by decide), h8 50 (by decide), h32 52 (by decide), h32 56 (by decide), h32 60 (by decide)]

end

/-! ## Attributes that hold structures -/

section

variable [HostOrder]

/-- an attribute that is as long as the policy wants it, and as the structure in it says -/
structure Proper (policy : ℕ → NlaPolicy) (extent : ℕ → Mem → ℕ → ℕ) (l : Leaf) : Prop where
  wf : l.WF
  min : policyMinlen (policy (l.type % 16384)) ≤ l.payload.length
  held : extent (l.type % 16384) (memOf l.payload) 0 ≤ l.payload.length

/-- bytes of the structure at `p` in an attribute of an association, if that is for the structure to say -/
def saExtent (type : ℕ) (m : Mem) (p : ℕ) : ℕ :=
  if type = XFRMA_ALG_AEAD ∨ type = XFRMA_ALG_AUTH_TRUNC then 72 + keyBytes (u32At m (p + 64))
  else if type = XFRMA_ALG_AUTH ∨ type = XFRMA_ALG_CRYPT ∨ type = XFRMA_ALG_COMP then 68 + keyBytes (u32At m (p + 64))
  else if type = XFRMA_SEC_CTX then 8 + (u16At m (p + 6)).toNat
  else if type = XFRMA_REPLAY_ESN_VAL then 24 + 4 * (u32At m p).toNat
  else 0

/-- the same in an attribute of a policy -/
def spExtent (type : ℕ) (m : Mem) (p : ℕ) : ℕ := if type = XFRMA_SEC_CTX then 8 + (u16At m (p + 6)).toNat else 0

section

variable {buf buf' : Mem} {ls : List Leaf} {tb tb' : Index}

/-- **What is read of an attribute** that two indexes hold -/
theorem map_same (h : SameIndex buf buf' ls tb tb') (t : ℕ) {α : Type} {f f' : ℕ → α}
    (hread : ∀ l ∈ ls, l.type % 16384 = t → ∀ nla nla', Twin buf buf' l nla nla' → f nla = f' nla') :
    (tb t).map f = (tb' t).map f' := by
  rcases h t with ⟨hnone, hnone'⟩ | ⟨nla, nla', hsome, hsome', l, hl, htype, htwin⟩
  · rw [hnone, hnone']
    rfl
  · rw [hsome, hsome', Option.map_some, Option.map_some, hread l hl htype nla nla' htwin]

theorem isSome_same (h : SameIndex buf buf' ls tb tb') (t : ℕ) : (tb t).isSome = (tb' t).isSome := by
  rcases h t with ⟨hnone, hnone'⟩ | ⟨nla, nla', hsome, hsome', -⟩
  · rw [hnone, hnone']
  · rw [hsome, hsome']
    rfl

variable {policy : ℕ → NlaPolicy} {extent : ℕ → Mem → ℕ → ℕ} {l : Leaf} {nla nla' : ℕ}

/-- the structures of a fixed size -/
theorem Proper.fixed (hl : Proper policy extent l) (htwin : Twin buf buf' l nla nla') {t n : ℕ} (ht : l.type % 16384 = t)
    (hn : policyMinlen (policy t) = n) : Same buf buf' (nlaData nla) (nlaData nla') n := by
  refine htwin.same.first n ?_
  rw [← hn, ← ht]
  exact hl.min

/-- the length of a key, wherever it is read -/
theorem key_alone (htwin : Twin buf buf' l nla nla') (hmin : 68 ≤ l.payload.length) :
    u32At buf (nlaData nla + 64) = u32At (memOf l.payload) (0 + 64) := (htwin.alone.sub 64 4 hmin).u32At

theorem longAlgo_held (hl : Proper xfrmSaPolicy saExtent l) (htwin : Twin buf buf' l nla nla')
    (ht : l.type % 16384 = XFRMA_ALG_AEAD ∨ l.type % 16384 = XFRMA_ALG_AUTH_TRUNC) :
    longAlgoAt buf (nlaData nla) = longAlgoAt buf' (nlaData nla') ∧
      u32At buf (nlaData nla + 68) = u32At buf' (nlaData nla' + 68) := by
  have hmin := hl.min
  have hheld := hl.held
  have hpolicy : policyMinlen (xfrmSaPolicy (l.type % 16384)) = 72 := by
    rcases ht with ht | ht
    · rw [ht]
      rfl
    · rw [ht]
      rfl
  rw [hpolicy] at hmin
  rw [saExtent, if_pos ht, ← key_alone htwin (by omega)] at hheld
  exact longAlgoAt_same htwin.same hmin hheld

theorem algo_held (hl : Proper xfrmSaPolicy saExtent l) (htwin : Twin buf buf' l nla nla') {t : ℕ}
    (ht : l.type % 16384 = t) (halgo : t = XFRMA_ALG_AUTH ∨ t = XFRMA_ALG_CRYPT ∨ t = XFRMA_ALG_COMP) :
    algoAt buf (nlaData nla) = algoAt buf' (nlaData nla') := by
  have hmin := hl.min
  have hheld := hl.held
  rw [ht] at hmin hheld
  have hlong : ¬ (t = XFRMA_ALG_AEAD ∨ t = XFRMA_ALG_AUTH_TRUNC) := by
    rcases halgo with rfl | rfl | rfl
    · decide
    · decide
    · decide
  have hpolicy : policyMinlen (xfrmSaPolicy t) = 68 := by
    rcases halgo with rfl | rfl | rfl
    · rfl
    · rfl
    · rfl
  rw [hpolicy] at hmin
  rw [saExtent, if_neg hlong, if_pos halgo, ← key_alone htwin hmin] at hheld
  exact algoAt_same htwin.same hmin hheld

theorem secCtx_held (hmin : 8 ≤ l.payload.length)
    (hheld : 8 + (u16At (memOf l.payload) (0 + 6)).toNat ≤ l.payload.length) (htwin : Twin buf buf' l nla nla') :
    secCtxAt buf (nlaData nla) = secCtxAt buf' (nlaData nla') := by
  have halone := (htwin.alone.sub 6 2 (by omega)).u16At
  rw [← halone] at hheld
  exact secCtxAt_same htwin.same hmin hheld

theorem replayEsn_held (hl : Proper xfrmSaPolicy saExtent l) (htwin : Twin buf buf' l nla nla')
    (ht : l.type % 16384 = XFRMA_REPLAY_ESN_VAL) : replayEsnAt buf (nlaData nla) = replayEsnAt buf' (nlaData nla') := by
  have hmin : 24 ≤ l.payload.length := by
    have hmin := hl.min
    rw [ht] at hmin
    exact hmin
  have hheld : 24 + 4 * (u32At (memOf l.payload) 0).toNat ≤ l.payload.length := by
    have hheld := hl.held
    rw [ht] at hheld
    exact hheld
  have halone := (htwin.alone.first 4 (by omega)).u32At
  rw [← halone] at hheld
  exact replayEsnAt_same htwin.same hmin hheld

/-- **The attributes of an association**, read of two messages -/
theorem readSaAttrs_same (h : SameIndex buf buf' ls tb tb') (hls : ∀ l ∈ ls, Proper xfrmSaPolicy saExtent l)
    (family : BitVec 16) : readSaAttrs family buf tb = readSaAttrs family buf' tb' := by
  have hfixed : ∀ {α : Type} (t n : ℕ) {f : Mem → ℕ → α}, policyMinlen (xfrmSaPolicy t) = n →
      (∀ p p', Same buf buf' p p' n → f buf p = f buf' p') →
      (tb t).map (fun nla => f buf (nlaData nla)) = (tb' t).map fun nla => f buf' (nlaData nla) := by
    intro α t n f hn hf
    exact map_same h t fun l hl ht nla nla' htwin => hf _ _ ((hls l hl).fixed htwin ht hn)
  have haead : (tb XFRMA_ALG_AEAD).map (fun nla => aeadAt buf (nlaData nla)) =
      (tb' XFRMA_ALG_AEAD).map fun nla => aeadAt buf' (nlaData nla) := by
    refine map_same h _ fun l hl ht nla nla' htwin => ?_
    obtain ⟨halgo, hicv⟩ := longAlgo_held (hls l hl) htwin (Or.inl ht)
    rw [aeadAt, halgo, hicv, aeadAt]
  have htrunc : (tb XFRMA_ALG_AUTH_TRUNC).map (fun nla => authTruncAt buf (nlaData nla)) =
      (tb' XFRMA_ALG_AUTH_TRUNC).map fun nla => authTruncAt buf' (nlaData nla) := by
    refine map_same h _ fun l hl ht nla nla' htwin => ?_
    obtain ⟨halgo, hlen⟩ := longAlgo_held (hls l hl) htwin (Or.inr ht)
    rw [authTruncAt, halgo, hlen, authTruncAt]
  have hauth : (tb XFRMA_ALG_AUTH).map (fun nla => authAt buf (nlaData nla)) =
      (tb' XFRMA_ALG_AUTH).map fun nla => authAt buf' (nlaData nla) := by
    refine map_same h _ fun l hl ht nla nla' htwin => ?_
    rw [authAt, algo_held (hls l hl) htwin ht (by decide), authAt]
  have hcrypt : (tb XFRMA_ALG_CRYPT).map (fun nla => algoAt buf (nlaData nla)) =
      (tb' XFRMA_ALG_CRYPT).map fun nla => algoAt buf' (nlaData nla) :=
    map_same h _ fun l hl ht nla nla' htwin => algo_held (hls l hl) htwin ht (by decide)
  have hcomp : (tb XFRMA_ALG_COMP).map (fun nla => algoAt buf (nlaData nla)) =
      (tb' XFRMA_ALG_COMP).map fun nla => algoAt buf' (nlaData nla) :=
    map_same h _ fun l hl ht nla nla' htwin => algo_held (hls l hl) htwin ht (by decide)
  have hsec : (tb XFRMA_SEC_CTX).map (fun nla => secCtxAt buf (nlaData nla)) =
      (tb' XFRMA_SEC_CTX).map fun nla => secCtxAt buf' (nlaData nla) := by
    refine map_same h _ fun l hl ht nla nla' htwin => ?_
    have hmin := (hls l hl).min
    have hheld := (hls l hl).held
    rw [ht] at hmin hheld
    exact secCtx_held hmin hheld htwin
  have hesn : (tb XFRMA_REPLAY_ESN_VAL).map (fun nla => replayEsnAt buf (nlaData nla)) =
      (tb' XFRMA_REPLAY_ESN_VAL).map fun nla => replayEsnAt buf' (nlaData nla) :=
    map_same h _ fun l hl ht nla nla' htwin => replayEsn_held (hls l hl) htwin ht
  have hencap := hfixed XFRMA_ENCAP 24 (f := encapAt family) rfl fun p p' hsame => encapAt_same family hsame
  have hcoaddr := hfixed XFRMA_COADDR 16 (f := addrAt family) rfl fun p p' hsame => addrAt_same family hsame
  have hmark := hfixed XFRMA_MARK 8 (f := markAt) rfl fun p p' hsame => markAt_same hsame
  have hreplay := hfixed XFRMA_REPLAY_VAL 12 (f := replayAt) rfl fun p p' hsame => replayAt_same hsame
  have hword : ∀ t, policyMinlen (xfrmSaPolicy t) = 4 → (tb t).map (nlaGetU32 buf) = (tb' t).map (nlaGetU32 buf') :=
    fun t ht => hfixed t 4 (f := u32At) ht fun p p' hsame => hsame.u32At
  rw [readSaAttrs, haead, htrunc, hauth, hcrypt, hcomp, hsec, hesn, hencap, hcoaddr, hmark, hreplay,
    hword XFRMA_TFCPAD rfl, hword XFRMA_ETIMER_THRESH rfl, hword XFRMA_REPLAY_THRESH rfl, isSome_same h, readSaAttrs]

/-- **The attributes of a policy**, read of two messages -/
theorem readSpAttrs_same (h : SameIndex buf buf' ls tb tb') (hls : ∀ l ∈ ls, Proper spPolicy spExtent l) :
    readSpAttrs buf tb = readSpAttrs buf' tb' := by
  have hsec : (tb XFRMA_SEC_CTX).map (fun nla => secCtxAt buf (nlaData nla)) =
      (tb' XFRMA_SEC_CTX).map fun nla => secCtxAt buf' (nlaData nla) := by
    refine map_same h _ fun l hl ht nla nla' htwin => ?_
    have hmin := (hls l hl).min
    have hheld := (hls l hl).held
    rw [ht] at hmin hheld
    exact secCtx_held hmin hheld htwin
  have htype : (tb XFRMA_POLICY_TYPE).map (fun nla => readBytes buf (nlaData nla) 6) =
      (tb' XFRMA_POLICY_TYPE).map fun nla => readBytes buf' (nlaData nla) 6 :=
    map_same h _ fun l hl ht nla nla' htwin => ((hls l hl).fixed htwin ht rfl).readBytes
  have hmark : (tb XFRMA_MARK).map (fun nla => markAt buf (nlaData nla)) =
      (tb' XFRMA_MARK).map fun nla => markAt buf' (nlaData nla) :=
    map_same h _ fun l hl ht nla nla' htwin => markAt_same ((hls l hl).fixed htwin ht rfl)
  have htmpls : (tb XFRMA_TMPL).map (userTmplsAt buf) = (tb' XFRMA_TMPL).map (userTmplsAt buf') := by
    refine map_same h _ fun l hl ht nla nla' htwin => ?_
    have hnum : numTmpls buf nla = numTmpls buf' nla' := by rw [numTmpls, htwin.len, numTmpls]
    have hfit : 64 * numTmpls buf nla ≤ l.payload.length := by
      have hlen := htwin.fst.len
      have hpay := (hls l hl).wf.len
      unfold numTmpls toU32 toU64
      omega
    rw [userTmplsAt, userTmplsAt, ← hnum]
    refine List.map_congr_left fun i hi => ?_
    have hlt := List.mem_range.1 hi
    exact userTmplAt_same (htwin.same.sub (64 * i) 64 (by omega))
  rw [readSpAttrs, hsec, htype, hmark, htmpls, readSpAttrs]

end

end

end Libnl.Xfrm
