/-
What the parsers of associations and policies read of a message (`xfrmnl_sa_parse`, `xfrmnl_sp_parse`), and whether it is
there.

The policies ask for the fixed part of each structure. What stands behind it has a length of its own, which nobody compares
with that of the attribute. And of the messages that have their header elsewhere, the length is not checked, or too late.

Each parser is the list of what it does with the message, with the places where it gives up because there is no memory.

- `Use`: bytes that are read, as many as a length says or up to the end of a string, and lengths that are computed.
- `InBounds`: nothing else than the message is read, copies stay within their attribute, and lengths are what they should be,
  wherever memory runs out.
- `sa_in_bounds_iff`, `sp_in_bounds_iff`: which messages are parsed like that.
- `xfrm_in_bounds_iff`: both. `reads_outside`: two messages that are not.
-/
import Mathlib.Tactic
import Libnl.Core.EarlyExit
import Libnl.Message.Local
import Libnl.Xfrm.Policy
import Libnl.Xfrm.Sa

namespace Libnl.Xfrm

open Bytes Layout Msg Attr AttrWalk Validate EarlyExit Addr

/-! ## What is done with a message -/

inductive Use where
  /-- the bytes are read -/
  | read (pos n : ℕ)
  /-- the bytes are copied from an attribute; a length in the message says how many -/
  | copy (nla pos n : ℕ)
  /-- a string is copied from an attribute, up to its end -/
  | string (nla pos : ℕ)
  /-- a length is computed in an `int` -/
  | length (exact : ℕ) (computed : ℤ)

/-- where memory runs out -/
structure Memory where
  noObject : Bool
  /-- for what the attribute of the type holds -/
  noAttr : ℕ → Bool
  /-- for a template -/
  noTmpl : ℕ → Bool

/-- nowhere -/
def plenty : Memory := ⟨false, fun _ => false, fun _ => false⟩

/-- `calloc(1, len)` fails, also for a negative `len`, which is converted to more than there is -/
def Memory.lacks (h : Memory) (type : ℕ) (len : ℤ) : Bool := h.noAttr type || decide (len < 0)

section

variable [HostOrder]

/-- what is read is in the message, what is copied in the attribute, and a length is what it should be -/
def Use.Fine (n : NlMsg) : Use → Prop
  | .read pos k => pos + k ≤ n.nlmsgLen
  | .copy nla pos k => pos + k ≤ n.nlmsgLen ∧ nlaData nla ≤ pos ∧ ((pos + k : ℕ) : ℤ) ≤ nlaData nla + nlaLen n.buf nla
  | .string nla pos => ∃ i : ℕ, pos + i < n.nlmsgLen ∧ nlaData nla ≤ pos ∧
      ((pos + i : ℕ) : ℤ) < nlaData nla + nlaLen n.buf nla ∧ n.buf (pos + i) = 0
  | .length exact computed => computed = exact

/-! ## Structures -/

/-- members of a structure at `p` that are read, each with its offset and its size -/
def members (p : ℕ) (ms : List (ℕ × ℕ)) : List (Line Use) := accesses (ms.map fun m => .read (p + m.1) m.2)

/-- `struct xfrm_selector` -/
def selMembers (m : Mem) (p : ℕ) : List (ℕ × ℕ) :=
  let size := addrSize (u16At m (p + 40))
  [(40, 2), (0, size), (42, 1), (16, size), (43, 1), (32, 2), (34, 2), (36, 2), (38, 2), (44, 1), (48, 4), (52, 4)]

/-- `struct xfrm_lifetime_cfg` at an offset in another structure -/
def ltimeCfgMembers (off : ℕ) : List (ℕ × ℕ) :=
  [(off, 8), (off + 8, 8), (off + 16, 8), (off + 24, 8), (off + 32, 8), (off + 40, 8), (off + 48, 8), (off + 56, 8)]

/-- `struct xfrm_lifetime_cur` at an offset in another structure -/
def lifetimeCurMembers (off : ℕ) : List (ℕ × ℕ) := [(off, 8), (off + 8, 8), (off + 16, 8), (off + 24, 8)]

/-- `struct xfrm_usersa_info` -/
def saMembers (m : Mem) (p : ℕ) : List (ℕ × ℕ) :=
  let size := addrSize (u16At m (p + 212))
  selMembers m p ++ ([(212, 2), (56, size), (72, 4), (76, 1), (80, size)] ++ (ltimeCfgMembers 96 ++ (lifetimeCurMembers 160 ++
    [(192, 4), (196, 4), (200, 4), (204, 4), (208, 4), (214, 1), (215, 1), (216, 1)])))

/-- `struct xfrm_userpolicy_info` -/
def spMembers (m : Mem) (p : ℕ) : List (ℕ × ℕ) :=
  selMembers m p ++ (ltimeCfgMembers 56 ++ (lifetimeCurMembers 120 ++
    [(152, 4), (156, 4), (160, 1), (161, 1), (162, 1), (163, 1)]))

/-- `struct xfrm_user_tmpl` -/
def tmplMembers (m : Mem) (p : ℕ) : List (ℕ × ℕ) :=
  let size := addrSize (u16At m (p + 24))
  [(24, 2), (0, size), (16, 4), (20, 1), (28, size), (44, 4), (48, 1), (49, 1), (50, 1), (52, 4), (56, 4), (60, 4)]

/-! ## Attributes -/

/-- an attribute of which members are read -/
def memberLines (tb : Index) (type : ℕ) (ms : List (ℕ × ℕ)) : List (Line Use) :=
  ifSome (tb type) fun nla => members (nlaData nla) ms

/-- an attribute of which so many bytes are copied as `len` says, when there is memory for them -/
def copyLines (h : Memory) (type nla exact : ℕ) (len : ℤ) : List (Line Use) :=
  [.access (.length exact len), .leave (h.lacks type len), .access (.copy nla (nlaData nla) (toU64 len))]

/-- bytes that a key of so many bits has -/
def keySize (keyLen : BitVec 32) : ℕ := (keyLen.toNat + 7) / 8

/-- an algorithm with its key behind so many bytes -/
def algoLines (h : Memory) (buf : Mem) (tb : Index) (type size : ℕ) : List (Line Use) :=
  ifSome (tb type) fun nla =>
    let keyLen := u32At buf (nlaData nla + 64)
    members (nlaData nla) [(64, 4)] ++
      copyLines h type nla (size + keySize keyLen) (toInt32 ((size + keyBytes keyLen : ℕ) : ℤ))

/-- `XFRMA_ALG_AUTH`, of which the name is copied as a string, and the key -/
def authLines (h : Memory) (buf : Mem) (tb : Index) : List (Line Use) :=
  if (tb XFRMA_ALG_AUTH_TRUNC).isSome then []
  else ifSome (tb XFRMA_ALG_AUTH) fun nla =>
    let keyLen := u32At buf (nlaData nla + 64)
    let len := toInt32 ((72 + keyBytes keyLen : ℕ) : ℤ)
    members (nlaData nla) [(64, 4)] ++
      [.access (.length (72 + keySize keyLen) len), .leave (h.lacks XFRMA_ALG_AUTH len), .access (.string nla (nlaData nla)),
        .access (.copy nla (nlaData nla + 68) (keyBytes keyLen))]

/-- `XFRMA_SEC_CTX` -/
def secCtxLines (h : Memory) (buf : Mem) (tb : Index) : List (Line Use) :=
  ifSome (tb XFRMA_SEC_CTX) fun nla =>
    let ctxLen := (u16At buf (nlaData nla + 6)).toNat
    members (nlaData nla) [(6, 2)] ++ copyLines h XFRMA_SEC_CTX nla (8 + ctxLen) (toInt32 ((8 + ctxLen : ℕ) : ℤ))

/-- the replay state, of either kind -/
def replayLines (h : Memory) (buf : Mem) (tb : Index) : List (Line Use) :=
  if (tb XFRMA_REPLAY_ESN_VAL).isSome then
    ifSome (tb XFRMA_REPLAY_ESN_VAL) fun nla =>
      let bmpLen := (u32At buf (nlaData nla)).toNat
      members (nlaData nla) [(0, 4)] ++
        copyLines h XFRMA_REPLAY_ESN_VAL nla (24 + 4 * bmpLen) (toInt32 ((24 + 4 * bmpLen : ℕ) : ℤ))
  else memberLines tb XFRMA_REPLAY_VAL [(4, 4), (0, 4), (8, 4)]

/-- `XFRMA_TMPL` -/
def tmplLines (h : Memory) (buf : Mem) (tb : Index) : List (Line Use) :=
  ifSome (tb XFRMA_TMPL) fun nla => (List.range (numTmpls buf nla)).flatMap fun i =>
    .leave (h.noTmpl i) :: members (nlaData nla + 64 * i) (tmplMembers buf (nlaData nla + 64 * i))

/-! ## The parsers -/

/-- `xfrmnl_sa_parse`, when the message is parsed -/
def saBody (h : Memory) (n : NlMsg) (tb : Index) : List (Line Use) :=
  let family := u16At n.buf (saInfoPos n + 212)
  members (saInfoPos n) (saMembers n.buf (saInfoPos n)) ++
    (algoLines h n.buf tb XFRMA_ALG_AEAD 72 ++ (algoLines h n.buf tb XFRMA_ALG_AUTH_TRUNC 72 ++ (authLines h n.buf tb ++
    (algoLines h n.buf tb XFRMA_ALG_CRYPT 68 ++ (algoLines h n.buf tb XFRMA_ALG_COMP 68 ++
    ([.leave ((tb XFRMA_ENCAP).isSome && h.noAttr XFRMA_ENCAP)] ++
    (memberLines tb XFRMA_ENCAP [(0, 2), (2, 2), (4, 2), (8, addrSize family)] ++ (memberLines tb XFRMA_TFCPAD [(0, 4)] ++
    (memberLines tb XFRMA_COADDR [(0, addrSize family)] ++ (memberLines tb XFRMA_MARK [(4, 4), (0, 4)] ++
    (secCtxLines h n.buf tb ++ (memberLines tb XFRMA_ETIMER_THRESH [(0, 4)] ++
    (memberLines tb XFRMA_REPLAY_THRESH [(0, 4)] ++ replayLines h n.buf tb)))))))))))))

/-- `xfrmnl_sa_parse`; of an expiry, `hard` is read before anything else -/
def saLines (h : Memory) (n : NlMsg) : List (Line Use) :=
  let (err, tb) := nlmsgParse n 224 XFRMA_MAX (some xfrmSaPolicy)
  [.leave h.noObject] ++ ((if n.nlmsgType = XFRM_MSG_EXPIRE then members nlmsgData [(224, 1)] else []) ++
    ([.leave (decide (err < 0))] ++ saBody h n tb))

/-- `xfrmnl_sp_parse`, when the message is parsed -/
def spBody (h : Memory) (n : NlMsg) (tb : Index) : List (Line Use) :=
  members (spInfoPos n) (spMembers n.buf (spInfoPos n)) ++
    (secCtxLines h n.buf tb ++ (memberLines tb XFRMA_POLICY_TYPE [(0, 6)] ++ (tmplLines h n.buf tb ++
      memberLines tb XFRMA_MARK [(4, 4), (0, 4)])))

/-- `xfrmnl_sp_parse` -/
def spLines (h : Memory) (n : NlMsg) : List (Line Use) :=
  let (err, tb) := nlmsgParse n 168 XFRMA_MAX (some spPolicy)
  [.leave h.noObject] ++ ([.leave (decide (err < 0))] ++ spBody h n tb)

inductive XfrmParser where
  | sa
  | sp
deriving DecidableEq

def XfrmParser.lines (h : Memory) (n : NlMsg) : XfrmParser → List (Line Use)
  | .sa => saLines h n
  | .sp => spLines h n

/-- **The parser stays in bounds**, wherever memory runs out -/
def XfrmParser.InBounds (P : XfrmParser) (n : NlMsg) : Prop := ∀ h, All (Use.Fine n) (P.lines h n)

/-! ## What a message must be -/

/-- the attribute has as many bytes as it says -/
def Long (buf : Mem) (tb : Index) (type : ℕ) (need : ℕ → ℕ) : Prop :=
  ∀ nla, tb type = some nla → (need (nlaData nla) : ℤ) ≤ nlaLen buf nla

/-- an algorithm with its key -/
def algoNeed (buf : Mem) (size p : ℕ) : ℕ := size + keySize (u32At buf (p + 64))

/-- the name of an algorithm ends in its attribute -/
def NameEnds (buf : Mem) (tb : Index) : Prop :=
  ∀ nla, tb XFRMA_ALG_AUTH = some nla → ∃ i : ℕ, (i : ℤ) < nlaLen buf nla ∧ buf (nlaData nla + i) = 0

/-- a security context with its string -/
def secCtxNeed (buf : Mem) (p : ℕ) : ℕ := 8 + (u16At buf (p + 6)).toNat

/-- a replay state with its bitmap -/
def esnNeed (buf : Mem) (p : ℕ) : ℕ := 24 + 4 * (u32At buf p).toNat

/-- an association, in a message that could be parsed -/
structure SaFits (n : NlMsg) (tb : Index) : Prop where
  header : n.nlmsgType = XFRM_MSG_DELSA → 261 ≤ n.nlmsgLen
  aead : Long n.buf tb XFRMA_ALG_AEAD (algoNeed n.buf 72)
  authTrunc : Long n.buf tb XFRMA_ALG_AUTH_TRUNC (algoNeed n.buf 72)
  auth : tb XFRMA_ALG_AUTH_TRUNC = none → Long n.buf tb XFRMA_ALG_AUTH (algoNeed n.buf 68) ∧ NameEnds n.buf tb
  crypt : Long n.buf tb XFRMA_ALG_CRYPT (algoNeed n.buf 68)
  comp : Long n.buf tb XFRMA_ALG_COMP (algoNeed n.buf 68)
  secCtx : Long n.buf tb XFRMA_SEC_CTX (secCtxNeed n.buf)
  esn : Long n.buf tb XFRMA_REPLAY_ESN_VAL (esnNeed n.buf)

/-- a policy, in a message that could be parsed -/
structure SpFits (n : NlMsg) (tb : Index) : Prop where
  header : n.nlmsgType = XFRM_MSG_DELPOLICY → 248 ≤ n.nlmsgLen
  secCtx : Long n.buf tb XFRMA_SEC_CTX (secCtxNeed n.buf)

/-- the message has what the parser takes for granted -/
def XfrmParser.Fits (n : NlMsg) : XfrmParser → Prop
  | .sa => (n.nlmsgType = XFRM_MSG_EXPIRE → 241 ≤ n.nlmsgLen) ∧
      (0 ≤ (nlmsgParse n 224 XFRMA_MAX (some xfrmSaPolicy)).1 →
        SaFits n (nlmsgParse n 224 XFRMA_MAX (some xfrmSaPolicy)).2)
  | .sp => 0 ≤ (nlmsgParse n 168 XFRMA_MAX (some spPolicy)).1 →
        SpFits n (nlmsgParse n 168 XFRMA_MAX (some spPolicy)).2

/-! ## Members -/

section

variable {n : NlMsg} {p k : ℕ} {ms : List (ℕ × ℕ)}

theorem all_members : All (Use.Fine n) (members p ms) ↔ ∀ m ∈ ms, p + m.1 + m.2 ≤ n.nlmsgLen := by
  rw [members, All, made_accesses]
  exact List.forall_mem_map

/-- members within a structure of which the message has enough -/
theorem members_fine (hin : ∀ m ∈ ms, m.1 + m.2 ≤ k) (hk : p + k ≤ n.nlmsgLen) : All (Use.Fine n) (members p ms) :=
  all_members.2 fun m hm => by
    have hle := hin m hm
    omega

/-- and of which the last one is read -/
theorem members_iff (hin : ∀ m ∈ ms, m.1 + m.2 ≤ k) (last : ℕ × ℕ) (hlast : last ∈ ms) (hk : last.1 + last.2 = k) :
    All (Use.Fine n) (members p ms) ↔ p + k ≤ n.nlmsgLen := by
  constructor
  · intro h
    have hle := all_members.1 h last hlast
    omega
  · exact members_fine hin

omit [HostOrder] in
theorem left_members : left (members p ms) = false := left_accesses _

omit [HostOrder] in
theorem left_memberLines {tb : Index} {type : ℕ} : left (memberLines tb type ms) = false := by
  unfold memberLines
  cases tb type with
  | none => rfl
  | some nla => exact left_members

theorem selMembers_in (m : Mem) (p : ℕ) : ∀ x ∈ selMembers m p, x.1 + x.2 ≤ 56 := by
  have hsize := addrSize_le (u16At m (p + 40))
  simp only [selMembers, List.forall_mem_cons, List.not_mem_nil, false_implies, implies_true, and_true]
  omega

omit [HostOrder] in
theorem ltimeCfgMembers_in (off : ℕ) : ∀ x ∈ ltimeCfgMembers off, x.1 + x.2 ≤ off + 64 := by
  simp only [ltimeCfgMembers, List.forall_mem_cons, List.not_mem_nil, false_implies, implies_true, and_true]
  omega

omit [HostOrder] in
theorem lifetimeCurMembers_in (off : ℕ) : ∀ x ∈ lifetimeCurMembers off, x.1 + x.2 ≤ off + 32 := by
  simp only [lifetimeCurMembers, List.forall_mem_cons, List.not_mem_nil, false_implies, implies_true, and_true]
  omega

/-- the last member that is read of an association is `flags` -/
theorem saMembers_iff : All (Use.Fine n) (members p (saMembers n.buf p)) ↔ p + 217 ≤ n.nlmsgLen := by
  have hsize := addrSize_le (u16At n.buf (p + 212))
  refine members_iff (fun m hm => ?_) (216, 1) (by simp [saMembers]) rfl
  simp only [saMembers, List.mem_append] at hm
  rcases hm with hm | hm | hm | hm | hm
  · have hle := selMembers_in n.buf p m hm
    omega
  · revert hm m
    simp only [List.forall_mem_cons, List.not_mem_nil, false_implies, implies_true, and_true]
    omega
  · have hle := ltimeCfgMembers_in 96 m hm
    omega
  · have hle := lifetimeCurMembers_in 160 m hm
    omega
  · revert hm m
    decide

/-- the last member that is read of a policy is `share` -/
theorem spMembers_iff : All (Use.Fine n) (members p (spMembers n.buf p)) ↔ p + 164 ≤ n.nlmsgLen := by
  refine members_iff (fun m hm => ?_) (163, 1) (by simp [spMembers]) rfl
  simp only [spMembers, List.mem_append] at hm
  rcases hm with hm | hm | hm | hm
  · have hle := selMembers_in n.buf p m hm
    omega
  · have hle := ltimeCfgMembers_in 56 m hm
    omega
  · have hle := lifetimeCurMembers_in 120 m hm
    omega
  · revert hm m
    decide

theorem tmplMembers_in (m : Mem) (p : ℕ) : ∀ x ∈ tmplMembers m p, x.1 + x.2 ≤ 64 := by
  have hsize := addrSize_le (u16At m (p + 24))
  simp only [tmplMembers, List.forall_mem_cons, List.not_mem_nil, false_implies, implies_true, and_true]
  omega

end

/-! ## Attributes with a length of their own -/

section

variable {n : NlMsg} {policy : ℕ → NlaPolicy} {front type nla : ℕ} {tb : Index}

/-- the payload of an attribute is in the message -/
theorem payload_in (h : Inside n.buf policy front n.nlmsgLen type nla) :
    (nlaData nla : ℤ) + nlaLen n.buf nla ≤ n.nlmsgLen := by
  have hhdr := h.hdr
  have hright := h.right
  unfold nlaData nlaLen NLA_HDRLEN
  push_cast
  omega

/-- members of an attribute for which the policy asks so many bytes -/
theorem memberLines_fine {ms : List (ℕ × ℕ)} {k : ℕ} (htb : ∀ nla, tb type = some nla → Inside n.buf policy front n.nlmsgLen type nla)
    (hin : ∀ m ∈ ms, m.1 + m.2 ≤ k) (hk : k ≤ policyMinlen (policy type)) : All (Use.Fine n) (memberLines tb type ms) := by
  refine (all_ifSome _ _).2 fun nla hnla => members_fine hin ?_
  have hentry := htb nla hnla
  have hpayload := payload_in hentry
  have hmin := hentry.conforms.min
  omega

omit [HostOrder] in
/-- a length that is not negative is no reason to give up -/
theorem plenty_lacks {len : ℤ} (hlen : 0 ≤ len) : plenty.lacks type len = false := by
  show (false || decide (len < 0)) = false
  rw [Bool.false_or, decide_eq_false_iff_not]
  exact not_lt.2 hlen

/-- a payload is not longer than its length field says -/
theorem payload_short (buf : Mem) (nla : ℕ) : nlaLen buf nla ≤ 65531 := by
  have hlt : nlaLenField buf nla < 65536 := getU16_lt _ _
  unfold nlaLen NLA_HDRLEN
  omega

/-- a copy of as many bytes as there are -/
theorem copyLines_fine (hentry : Inside n.buf policy front n.nlmsgLen type nla) (h : Memory) {exact : ℕ} {len : ℤ}
    (hlen : len = exact) (hfit : (exact : ℤ) ≤ nlaLen n.buf nla) : All (Use.Fine n) (copyLines h type nla exact len) := by
  have hpayload := payload_in hentry
  have hcopy : toU64 len = exact := by
    have hshort := payload_short n.buf nla
    rw [hlen]
    unfold toU64
    omega
  refine (all_access_cons _ _).2 ⟨hlen, (all_leave_cons _ _).2 fun _ => (all_access_cons _ _).2 ⟨⟨?_, le_rfl, ?_⟩, all_nil _⟩⟩
  · rw [hcopy]
    omega
  · rw [hcopy]
    push_cast
    omega

/-- a copy that was fine -/
theorem copyLines_fits {exact : ℕ} {len : ℤ} (hlt : len < 2147483648)
    (h : All (Use.Fine n) (copyLines plenty type nla exact len)) : (exact : ℤ) ≤ nlaLen n.buf nla := by
  obtain ⟨hlen, hrest⟩ := (all_access_cons (Use.length exact len) _).1 h
  have hnat : len = exact := hlen
  have hstays : plenty.lacks type len = false := plenty_lacks (by omega)
  obtain ⟨⟨-, -, hto⟩, -⟩ := (all_access_cons _ _).1 ((all_leave_cons _ _).1 hrest hstays)
  have hcopy : toU64 len = exact := by
    rw [hnat] at hlt ⊢
    unfold toU64
    omega
  rw [hcopy] at hto
  push_cast at hto
  omega

omit [HostOrder] in
/-- a key that does not wrap -/
theorem keyBytes_eq (keyLen : BitVec 32) (h : keyLen.toNat + 7 < 4294967296) : keyBytes keyLen = keySize keyLen := by
  have hadd : (keyLen + 7).toNat = keyLen.toNat + 7 := by
    rw [BitVec.toNat_add]
    exact Nat.mod_eq_of_lt h
  rw [keyBytes, BitVec.toNat_udiv, hadd]
  rfl

omit [HostOrder] in
theorem keyBytes_lt (keyLen : BitVec 32) : keyBytes keyLen < 536870912 := by
  have hlt := (keyLen + 7).isLt
  rw [keyBytes, BitVec.toNat_udiv]
  exact Nat.div_lt_of_lt_mul hlt

omit [HostOrder] in
/-- the length of a key and what stands before it, in an `int` -/
theorem keyed_length {keyLen : BitVec 32} {size : ℕ} (hsize : size ≤ 72) :
    toInt32 ((size + keyBytes keyLen : ℕ) : ℤ) = (size + keyBytes keyLen : ℕ) := by
  have hlt := keyBytes_lt keyLen
  exact toInt32_of_mem (by omega) (by omega)

omit [HostOrder] in
theorem left_ifSome {β : Type} {o : Option β} {f : β → List (Line Use)} (h : ∀ b, left (f b) = false) :
    left (ifSome o f) = false := by
  cases o with
  | none => rfl
  | some b => exact h b

omit [HostOrder] in
/-- a copy of which memory is enough goes on -/
theorem left_copyLines {exact : ℕ} {len : ℤ} (hlen : 0 ≤ len) : left (copyLines plenty type nla exact len) = false := by
  rw [copyLines, plenty_lacks hlen]
  rfl

theorem left_algoLines {size : ℕ} (hsize : size ≤ 72) : left (algoLines plenty n.buf tb type size) = false := by
  refine left_ifSome fun nla => ?_
  rw [left_append, left_members, Bool.false_or, keyed_length hsize]
  exact left_copyLines (Int.natCast_nonneg _)

theorem left_secCtxLines : left (secCtxLines plenty n.buf tb) = false := by
  refine left_ifSome fun nla => ?_
  have hlt := (u16At n.buf (nlaData nla + 6)).isLt
  rw [left_append, left_members, Bool.false_or, toInt32_of_mem (by omega) (by omega)]
  exact left_copyLines (Int.natCast_nonneg _)

theorem left_authLines : left (authLines plenty n.buf tb) = false := by
  unfold authLines
  split_ifs
  · rfl
  · refine left_ifSome fun nla => ?_
    rw [left_append, left_members, Bool.false_or, keyed_length le_rfl]
    rw [plenty_lacks (Int.natCast_nonneg _)]
    rfl

/-- **An algorithm** with its key -/
theorem algoLines_fine {size : ℕ} (hsize : 68 ≤ size ∧ size ≤ 72)
    (htb : ∀ nla, tb type = some nla → Inside n.buf policy front n.nlmsgLen type nla) (hfit : Long n.buf tb type (algoNeed n.buf size))
    (h : Memory) : All (Use.Fine n) (algoLines h n.buf tb type size) := by
  refine (all_ifSome _ _).2 fun nla hnla => ?_
  have hentry := htb nla hnla
  have hpayload := payload_in hentry
  have hneed : ((size + keySize (u32At n.buf (nlaData nla + 64)) : ℕ) : ℤ) ≤ nlaLen n.buf nla := hfit nla hnla
  have hshort := payload_short n.buf nla
  have hkey := keyBytes_eq (u32At n.buf (nlaData nla + 64)) (by unfold keySize at hneed; omega)
  refine (members_fine (k := 68) (by decide) (by omega)).append (copyLines_fine hentry h ?_ hneed)
  rw [keyed_length hsize.2, hkey]

theorem algoLines_fits {size : ℕ} (hsize : size ≤ 72) (h : All (Use.Fine n) (algoLines plenty n.buf tb type size)) :
    Long n.buf tb type (algoNeed n.buf size) := by
  intro nla hnla
  have hall := (all_ifSome _ _).1 h nla hnla
  have hcopy := ((all_append _ _).1 hall).2 left_members
  have hlt := keyBytes_lt (u32At n.buf (nlaData nla + 64))
  rw [keyed_length hsize] at hcopy
  exact copyLines_fits (by omega) hcopy

/-- **A security context** with its string -/
theorem secCtxLines_fine (htb : ∀ nla, tb XFRMA_SEC_CTX = some nla → Inside n.buf policy front n.nlmsgLen XFRMA_SEC_CTX nla)
    (hfit : Long n.buf tb XFRMA_SEC_CTX (secCtxNeed n.buf)) (h : Memory) : All (Use.Fine n) (secCtxLines h n.buf tb) := by
  refine (all_ifSome _ _).2 fun nla hnla => ?_
  have hentry := htb nla hnla
  have hpayload := payload_in hentry
  have hneed : ((8 + (u16At n.buf (nlaData nla + 6)).toNat : ℕ) : ℤ) ≤ nlaLen n.buf nla := hfit nla hnla
  have hlt := (u16At n.buf (nlaData nla + 6)).isLt
  refine (members_fine (k := 8) (by decide) (by omega)).append (copyLines_fine hentry h ?_ hneed)
  exact toInt32_of_mem (by omega) (by omega)

theorem secCtxLines_fits (h : All (Use.Fine n) (secCtxLines plenty n.buf tb)) :
    Long n.buf tb XFRMA_SEC_CTX (secCtxNeed n.buf) := by
  intro nla hnla
  have hall := (all_ifSome _ _).1 h nla hnla
  have hcopy := ((all_append _ _).1 hall).2 left_members
  have hlt := (u16At n.buf (nlaData nla + 6)).isLt
  refine copyLines_fits ?_ hcopy
  rw [toInt32_of_mem (by omega) (by omega)]
  omega

/-- **The replay state**: a bitmap whose length fits, or three numbers -/
theorem replayLines_fine (htb : ∀ type nla, tb type = some nla → Inside n.buf xfrmSaPolicy front n.nlmsgLen type nla)
    (hfit : Long n.buf tb XFRMA_REPLAY_ESN_VAL (esnNeed n.buf)) (h : Memory) : All (Use.Fine n) (replayLines h n.buf tb) := by
  unfold replayLines
  split_ifs
  · refine (all_ifSome _ _).2 fun nla hnla => ?_
    have hentry := htb _ nla hnla
    have hpayload := payload_in hentry
    have hneed : ((24 + 4 * (u32At n.buf (nlaData nla)).toNat : ℕ) : ℤ) ≤ nlaLen n.buf nla := hfit nla hnla
    have hshort := payload_short n.buf nla
    refine (members_fine (k := 4) (by decide) (by omega)).append (copyLines_fine hentry h ?_ hneed)
    exact toInt32_of_mem (by omega) (by omega)
  · exact memberLines_fine (k := 12) (fun nla hnla => htb _ nla hnla) (by decide) (by decide)

theorem replayLines_fits (h : All (Use.Fine n) (replayLines plenty n.buf tb)) :
    Long n.buf tb XFRMA_REPLAY_ESN_VAL (esnNeed n.buf) := by
  intro nla hnla
  have hsome : (tb XFRMA_REPLAY_ESN_VAL).isSome = true := by
    rw [hnla]
    rfl
  rw [replayLines, if_pos hsome] at h
  have hall := (all_ifSome _ _).1 h nla hnla
  have hcopy := ((all_append _ _).1 hall).2 left_members
  refine copyLines_fits ?_ hcopy
  unfold toInt32
  split_ifs <;> omega

/-- **Authentication without truncation**: a name that ends, and a key -/
theorem authLines_fine (htb : ∀ nla, tb XFRMA_ALG_AUTH = some nla → Inside n.buf policy front n.nlmsgLen XFRMA_ALG_AUTH nla)
    (hfit : tb XFRMA_ALG_AUTH_TRUNC = none → Long n.buf tb XFRMA_ALG_AUTH (algoNeed n.buf 68) ∧ NameEnds n.buf tb)
    (h : Memory) : All (Use.Fine n) (authLines h n.buf tb) := by
  unfold authLines
  split_ifs with hsome
  · exact all_nil _
  · obtain ⟨hlong, hname⟩ := hfit (Option.not_isSome_iff_eq_none.1 hsome)
    refine (all_ifSome _ _).2 fun nla hnla => ?_
    have hentry := htb nla hnla
    have hpayload := payload_in hentry
    have hneed : ((68 + keySize (u32At n.buf (nlaData nla + 64)) : ℕ) : ℤ) ≤ nlaLen n.buf nla := hlong nla hnla
    have hshort := payload_short n.buf nla
    have hkey := keyBytes_eq (u32At n.buf (nlaData nla + 64)) (by unfold keySize at hneed; omega)
    obtain ⟨i, hi, hzero⟩ := hname nla hnla
    refine (members_fine (k := 68) (by decide) (by omega)).append ?_
    have hlen : toInt32 ((72 + keyBytes (u32At n.buf (nlaData nla + 64)) : ℕ) : ℤ) =
        (72 + keySize (u32At n.buf (nlaData nla + 64)) : ℕ) := by
      rw [keyed_length le_rfl, hkey]
    have hstring : Use.Fine n (.string nla (nlaData nla)) := ⟨i, by omega, le_rfl, by push_cast; omega, hzero⟩
    have hcopy : Use.Fine n (.copy nla (nlaData nla + 68) (keyBytes (u32At n.buf (nlaData nla + 64)))) := by
      refine ⟨by omega, Nat.le_add_right _ _, ?_⟩
      push_cast
      omega
    refine (all_access_cons _ _).2 ⟨hlen, (all_leave_cons _ _).2 fun _ => ?_⟩
    exact (all_access_cons _ _).2 ⟨hstring, (all_access_cons _ _).2 ⟨hcopy, all_nil _⟩⟩

theorem authLines_fits (h : All (Use.Fine n) (authLines plenty n.buf tb)) (hnone : tb XFRMA_ALG_AUTH_TRUNC = none) :
    Long n.buf tb XFRMA_ALG_AUTH (algoNeed n.buf 68) ∧ NameEnds n.buf tb := by
  rw [authLines, if_neg (by rw [hnone]; exact Bool.false_ne_true)] at h
  have hboth : ∀ nla, tb XFRMA_ALG_AUTH = some nla →
      (algoNeed n.buf 68 (nlaData nla) : ℤ) ≤ nlaLen n.buf nla ∧
        ∃ i : ℕ, (i : ℤ) < nlaLen n.buf nla ∧ n.buf (nlaData nla + i) = 0 := by
    intro nla hnla
    have hall := ((all_append _ _).1 ((all_ifSome _ _).1 h nla hnla)).2 left_members
    rw [keyed_length le_rfl] at hall
    obtain ⟨hlength, hrest⟩ := (all_access_cons _ _).1 hall
    have hlen : ((72 + keyBytes (u32At n.buf (nlaData nla + 64)) : ℕ) : ℤ) =
        (72 + keySize (u32At n.buf (nlaData nla + 64)) : ℕ) := hlength
    have hmade := (all_leave_cons _ _).1 hrest (plenty_lacks (Int.natCast_nonneg _))
    obtain ⟨⟨i, -, -, hi, hzero⟩, hlast⟩ := (all_access_cons _ _).1 hmade
    obtain ⟨⟨-, -, hto⟩, -⟩ := (all_access_cons _ _).1 hlast
    push_cast at hi hto
    refine ⟨?_, i, by omega, hzero⟩
    unfold algoNeed
    push_cast
    omega
  exact ⟨fun nla hnla => (hboth nla hnla).1, fun nla hnla => (hboth nla hnla).2⟩

/-- **Templates**: as many as are there -/
theorem tmplLines_fine (htb : ∀ nla, tb XFRMA_TMPL = some nla → Inside n.buf policy front n.nlmsgLen XFRMA_TMPL nla)
    (h : Memory) : All (Use.Fine n) (tmplLines h n.buf tb) := by
  refine (all_ifSome _ _).2 fun nla hnla => ?_
  have hpayload := payload_in (htb nla hnla)
  have hhdr := (htb nla hnla).hdr
  have hlt : nlaLenField n.buf nla < 65536 := getU16_lt _ _
  have hcount : (64 * numTmpls n.buf nla : ℤ) ≤ nlaLen n.buf nla := by
    unfold numTmpls toU32 toU64 nlaLen NLA_HDRLEN
    omega
  have hall : ∀ is : List ℕ, (∀ i ∈ is, i < numTmpls n.buf nla) → All (Use.Fine n) (is.flatMap fun i =>
      Line.leave (h.noTmpl i) :: members (nlaData nla + 64 * i) (tmplMembers n.buf (nlaData nla + 64 * i))) := by
    intro is his
    induction is with
    | nil => exact all_nil _
    | cons i is ih =>
      have hi := his i List.mem_cons_self
      have hone : All (Use.Fine n) (members (nlaData nla + 64 * i) (tmplMembers n.buf (nlaData nla + 64 * i))) :=
        members_fine (tmplMembers_in _ _) (by omega)
      rw [List.flatMap_cons]
      exact All.append ((all_leave_cons _ _).2 fun _ => hone) (ih fun j hj => his j (List.mem_cons_of_mem i hj))
  exact hall _ fun i hi => List.mem_range.1 hi

end

/-! ## The two parsers -/

/-- **Associations** that are parsed in bounds -/
theorem saBody_fine_iff {n : NlMsg} {tb : Index} (hpos : 240 ≤ n.nlmsgLen)
    (htb : ∀ type nla, tb type = some nla → Inside n.buf xfrmSaPolicy 240 n.nlmsgLen type nla) :
    (∀ h, All (Use.Fine n) (saBody h n tb)) ↔ SaFits n tb := by
  have hheader : saInfoPos n + 217 ≤ n.nlmsgLen ↔ (n.nlmsgType = XFRM_MSG_DELSA → 261 ≤ n.nlmsgLen) := by
    unfold saInfoPos nlmsgData NLMSG_HDRLEN
    by_cases hdel : n.nlmsgType = XFRM_MSG_DELSA
    · rw [if_pos hdel]
      exact ⟨fun h _ => h, fun h => h hdel⟩
    · rw [if_neg hdel]
      exact iff_of_true (by omega) fun h => absurd h hdel
  constructor
  · intro h
    have hall := h plenty
    have hencap : left [Line.leave (α := Use) ((tb XFRMA_ENCAP).isSome && plenty.noAttr XFRMA_ENCAP)] = false := by
      show ((tb XFRMA_ENCAP).isSome && false || false) = false
      rw [Bool.and_false, Bool.or_false]
    simp only [saBody, all_append, left_members, left_algoLines (le_refl 72), left_algoLines (show 68 ≤ 72 by decide),
      left_authLines, left_secCtxLines, left_memberLines, hencap, true_implies, saMembers_iff, hheader] at hall
    obtain ⟨hhdr, haead, htrunc, hauth, hcrypt, hcomp, -, -, -, -, -, hsec, -, -, hreplay⟩ := hall
    exact ⟨hhdr, algoLines_fits le_rfl haead, algoLines_fits le_rfl htrunc, authLines_fits hauth,
      algoLines_fits (by decide) hcrypt, algoLines_fits (by decide) hcomp, secCtxLines_fits hsec, replayLines_fits hreplay⟩
  · intro hfits h
    have hsize := addrSize_le (u16At n.buf (saInfoPos n + 212))
    have hat := fun type nla hnla => htb type nla hnla
    have hends : ∀ m ∈ [(0, 2), (2, 2), (4, 2), (8, addrSize (u16At n.buf (saInfoPos n + 212)))], m.1 + m.2 ≤ 24 := by
      simp only [List.forall_mem_cons, List.not_mem_nil, false_implies, implies_true, and_true]
      omega
    have hcare : ∀ m ∈ [(0, addrSize (u16At n.buf (saInfoPos n + 212)))], m.1 + m.2 ≤ 16 := by
      simp only [List.forall_mem_cons, List.not_mem_nil, false_implies, implies_true, and_true]
      omega
    have hencap := memberLines_fine (hat XFRMA_ENCAP) hends (by decide)
    have hcoaddr := memberLines_fine (hat XFRMA_COADDR) hcare (by decide)
    have hword : ∀ type, 4 ≤ policyMinlen (xfrmSaPolicy type) → All (Use.Fine n) (memberLines tb type [(0, 4)]) :=
      fun type hk => memberLines_fine (hat _) (by decide) hk
    have hmark : All (Use.Fine n) (memberLines tb XFRMA_MARK [(4, 4), (0, 4)]) :=
      memberLines_fine (k := 8) (hat _) (by decide) (by decide)
    refine All.append (saMembers_iff.2 (hheader.2 hfits.header)) ?_
    refine (algoLines_fine (by decide) (hat _) hfits.aead h).append ?_
    refine (algoLines_fine (by decide) (hat _) hfits.authTrunc h).append ?_
    refine (authLines_fine (hat _) hfits.auth h).append ?_
    refine (algoLines_fine (by decide) (hat _) hfits.crypt h).append ?_
    refine (algoLines_fine (by decide) (hat _) hfits.comp h).append ?_
    refine (all_leave _ _).append (hencap.append ((hword _ (by decide)).append (hcoaddr.append (hmark.append ?_))))
    refine (secCtxLines_fine (hat _) hfits.secCtx h).append ?_
    exact (hword _ (by decide)).append ((hword _ (by decide)).append (replayLines_fine htb hfits.esn h))

/-- **Policies** that are parsed in bounds -/
theorem spBody_fine_iff {n : NlMsg} {tb : Index} (hpos : 184 ≤ n.nlmsgLen)
    (htb : ∀ type nla, tb type = some nla → Inside n.buf spPolicy 184 n.nlmsgLen type nla) :
    (∀ h, All (Use.Fine n) (spBody h n tb)) ↔ SpFits n tb := by
  have hheader : spInfoPos n + 164 ≤ n.nlmsgLen ↔ (n.nlmsgType = XFRM_MSG_DELPOLICY → 248 ≤ n.nlmsgLen) := by
    unfold spInfoPos nlmsgData NLMSG_HDRLEN
    by_cases hdel : n.nlmsgType = XFRM_MSG_DELPOLICY
    · rw [if_pos hdel]
      exact ⟨fun h _ => h, fun h => h hdel⟩
    · rw [if_neg hdel]
      exact iff_of_true (by omega) fun h => absurd h hdel
  constructor
  · intro h
    have hall := h plenty
    simp only [spBody, all_append, left_members, true_implies, spMembers_iff, hheader] at hall
    obtain ⟨hhdr, hsec, -⟩ := hall
    exact ⟨hhdr, secCtxLines_fits hsec⟩
  · intro hfits h
    have hat := fun type nla hnla => htb type nla hnla
    refine All.append (spMembers_iff.2 (hheader.2 hfits.header)) ?_
    refine (secCtxLines_fine (hat _) hfits.secCtx h).append ?_
    refine (memberLines_fine (k := 6) (hat _) (by decide) (by decide)).append ?_
    exact (tmplLines_fine (hat _) h).append (memberLines_fine (k := 8) (hat _) (by decide) (by decide))

/-- a message that was parsed is as long as its header -/
theorem long_of_parsed {n : NlMsg} {front : ℕ} {maxtype : ℤ} {policy : ℕ → NlaPolicy} (hfront : front < 65536)
    (hok : 0 ≤ (nlmsgParse n front maxtype (some policy)).1) : 16 + front ≤ n.nlmsgLen := by
  unfold nlmsgParse at hok
  by_cases hhdr : nlmsgValidHdr n front = true
  · rw [nlmsgValidHdr, NLMSG_HDRLEN, decide_eq_true_eq] at hhdr
    unfold toU32 at hhdr
    omega
  · rw [if_neg hhdr] at hok
    exact absurd hok (by decide)

/-- an expiry whose `hard` is in the message -/
theorem expire_fine_iff {n : NlMsg} : All (Use.Fine n) (if n.nlmsgType = XFRM_MSG_EXPIRE then members nlmsgData [(224, 1)] else []) ↔
    (n.nlmsgType = XFRM_MSG_EXPIRE → 241 ≤ n.nlmsgLen) := by
  by_cases hexpire : n.nlmsgType = XFRM_MSG_EXPIRE
  · rw [if_pos hexpire, all_members, List.forall_mem_singleton]
    exact ⟨fun h _ => h, fun h => h hexpire⟩
  · rw [if_neg hexpire]
    exact iff_of_true (all_nil _) fun h => absurd h hexpire

theorem sa_in_bounds_iff (n : NlMsg) : XfrmParser.sa.InBounds n ↔ XfrmParser.sa.Fits n := by
  have hleft : left (if n.nlmsgType = XFRM_MSG_EXPIRE then members nlmsgData [(224, 1)] else []) = false := by
    split_ifs
    · exact left_members
    · rfl
  have hlines : ∀ h, All (Use.Fine n) (saLines h n) ↔ (h.noObject = false →
      (n.nlmsgType = XFRM_MSG_EXPIRE → 241 ≤ n.nlmsgLen) ∧ (0 ≤ (nlmsgParse n 224 XFRMA_MAX (some xfrmSaPolicy)).1 →
        All (Use.Fine n) (saBody h n (nlmsgParse n 224 XFRMA_MAX (some xfrmSaPolicy)).2))) := by
    intro h
    simp only [saLines, List.singleton_append, all_leave_cons, all_append, hleft, expire_fine_iff, decide_eq_false_iff_not, not_lt,
      true_implies]
  have hbody : 0 ≤ (nlmsgParse n 224 XFRMA_MAX (some xfrmSaPolicy)).1 → ((∀ h, All (Use.Fine n) (saBody h n _)) ↔ SaFits n _) :=
    fun hok => saBody_fine_iff (long_of_parsed (by decide) hok) fun type nla hnla =>
      nlmsgParse_inside (by decide) (by decide) hok hnla
  constructor
  · intro h
    refine ⟨((hlines plenty).1 (h plenty) rfl).1, fun hok => (hbody hok).1 fun mem => ?_⟩
    -- the parser that has its object does not look at that again
    exact ((hlines { mem with noObject := false }).1 (h _) rfl).2 hok
  · rintro ⟨hexpire, hfits⟩ h
    exact (hlines h).2 fun _ => ⟨hexpire, fun hok => (hbody hok).2 (hfits hok) h⟩

theorem sp_in_bounds_iff (n : NlMsg) : XfrmParser.sp.InBounds n ↔ XfrmParser.sp.Fits n := by
  have hlines : ∀ h, All (Use.Fine n) (spLines h n) ↔ (h.noObject = false →
      0 ≤ (nlmsgParse n 168 XFRMA_MAX (some spPolicy)).1 →
        All (Use.Fine n) (spBody h n (nlmsgParse n 168 XFRMA_MAX (some spPolicy)).2)) := by
    intro h
    simp only [spLines, List.singleton_append, all_leave_cons, decide_eq_false_iff_not, not_lt]
  have hbody : 0 ≤ (nlmsgParse n 168 XFRMA_MAX (some spPolicy)).1 → ((∀ h, All (Use.Fine n) (spBody h n _)) ↔ SpFits n _) :=
    fun hok => spBody_fine_iff (long_of_parsed (by decide) hok) fun type nla hnla =>
      nlmsgParse_inside (by decide) (by decide) hok hnla
  constructor
  · intro h hok
    refine (hbody hok).1 fun mem => ?_
    exact (hlines { mem with noObject := false }).1 (h _) rfl hok
  · intro hfits h
    exact (hlines h).2 fun _ hok => (hbody hok).2 (hfits hok) h

/-- **In bounds**: each parser reads what is in the message, copies what is in its attributes and computes lengths that do
not wrap for the messages that fit, and for no others. -/
theorem xfrm_in_bounds_iff (P : XfrmParser) (n : NlMsg) : P.InBounds n ↔ P.Fits n := by
  cases P with
  | sa => exact sa_in_bounds_iff n
  | sp => exact sp_in_bounds_iff n

end

/-- an expiry without anything, whose byte 240 is read; an association with an AEAD attribute of 72 bytes that speaks of a key of
128 bits, which is copied; a policy with a security context of 8 bytes that speaks of 8 more -/
theorem reads_outside :
    ¬ @XfrmParser.InBounds ⟨false⟩ .sa ⟨16, 16, XFRM_MSG_EXPIRE, 0, 0, 0, fun _ => 0, false⟩ ∧
    ¬ @XfrmParser.InBounds ⟨false⟩ .sa ⟨316, 316, XFRM_MSG_NEWSA, 0, 0, 0,
        fun i => if i = 240 then 76 else if i = 242 then 18 else if i = 308 then 128 else 0, false⟩ ∧
    ¬ @XfrmParser.InBounds ⟨false⟩ .sp ⟨196, 196, XFRM_MSG_NEWPOLICY, 0, 0, 0,
        fun i => if i = 184 then 12 else if i = 186 then 8 else if i = 194 then 8 else 0, false⟩ := by
  let order : HostOrder := ⟨false⟩
  refine ⟨fun h => ?_, fun h => ?_, fun h => ?_⟩
  · exact absurd (((sa_in_bounds_iff _).1 h).1 rfl) (by decide)
  · have hfits := ((sa_in_bounds_iff _).1 h).2 (by decide)
    exact absurd (hfits.aead 240 (by decide)) (by decide)
  · have hfits := (sp_in_bounds_iff _).1 h (by decide)
    exact absurd (hfits.secCtx 184 (by decide)) (by decide)

end Libnl.Xfrm
