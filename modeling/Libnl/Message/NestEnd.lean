/-
Closing a nest whose content does not end aligned.

`_nest_end` pads the message up to the next multiple of four, by `nlmsg_reserve`, and calls `BUG()` if that fails: the buffer,
its comment says, must be a multiple of four bytes long. The allocators take any size.

- `kept_run`: whatever is added, the message stays within its buffer, nests start below two gigabytes, and a buffer of less
  than twenty bytes has no nest.
- `never_aborts`: so there is room for the padding in a buffer of a multiple of four bytes; one that is so large that no nest
  reaches its end needs no room.
- `aborts`: in any other the content of a nest can end so that there is none; sizes right below four gigabytes are left out.
- `nest_end_never_aborts`: both.
-/
import Mathlib.Tactic
import Libnl.Message.Frame

namespace Libnl.NestEnd

open Bytes Msg Attr Builder Libnl.Frame

variable [HostOrder]

/-- `_nest_end` gets to the padding, and there is no room for it -/
def PadAborts (m : NlMsg) (start : ℕ) (keepEmpty : Bool) : Prop :=
  ¬ NestDropped m start keepEmpty ∧ 0 < toU32 ((nlmsgAlign m.nlmsgLen : ℤ) - m.nlmsgLen) ∧
    (nlmsgReserve (closed m start) (toU32 ((nlmsgAlign m.nlmsgLen : ℤ) - m.nlmsgLen)) 0).2 = none

/-- then it aborts -/
theorem PadAborts.bug {m : NlMsg} {start : ℕ} {keepEmpty : Bool} (h : PadAborts m start keepEmpty) :
    (nestEnd m start keepEmpty).1.bug = true := by
  obtain ⟨hkept, hpad, hnone⟩ := h
  unfold NestDropped at hkept
  rw [nestEnd, if_neg hkept]
  simp only
  rw [if_pos hpad]
  cases hres : nlmsgReserve (closed m start) (toU32 ((nlmsgAlign m.nlmsgLen : ℤ) - m.nlmsgLen)) 0 with
  | mk m' p =>
    rw [hres] at hnone
    simp only at hnone
    subst hnone
    unfold closed at hres
    rw [hres]

/-- a call that adds to the message; lengths of attributes are given as `int` -/
def Adds : Call → Prop
  | .append _ _ => True
  | .reserve _ _ => True
  | .put _ n _ => n < 2147483648
  | .nestStart _ => True
  | .nestEnd _ => False
  | .nestCancel => False

/-- no nest that is open behind such calls aborts when it is closed -/
def NeverAborts (n : NlMsg) (keepEmpty : Bool) : Prop :=
  ∀ (cs : List Call) (s : State), (∀ c ∈ cs, Adds c) → run ⟨n, []⟩ cs = some s →
    ∀ nest ∈ s.nests, ¬ PadAborts s.msg nest.start keepEmpty

/-! ## Lengths -/

/-- where a nest can start, where lengths are compared as `int` -/
def MAX_START : ℕ := 2147483640

/-- where a nest starts behind which the length wraps -/
def LAST_START : ℕ := 4294967292

def Started (start : ℕ) : Prop := start % 4 = 0 ∧ (start ≤ MAX_START ∨ start = LAST_START)

/-- the length is within the buffer; if that is too small for a nest, there is none -/
structure Kept (size : ℕ) (s : State) : Prop where
  same : s.msg.nmSize = size
  le : s.msg.nlmsgLen ≤ size
  u32 : s.msg.nlmsgLen < 4294967296
  small : size < 20 → 16 ≤ s.msg.nlmsgLen ∧ s.nests = []
  starts : ∀ nest ∈ s.nests, Started nest.start

section

variable {size : ℕ} {s : State}

omit [HostOrder] in
theorem kept_fresh {n : NlMsg} (hn : Fresh n) : Kept n.nmSize ⟨n, []⟩ where
  same := rfl
  le := hn.len.symm ▸ hn.ge
  u32 := by
    show n.nlmsgLen < 4294967296
    rw [hn.len]
    decide
  small := fun _ => ⟨hn.len.ge, rfl⟩
  starts := nofun

omit [HostOrder] in
/-- reserving keeps the length within the buffer; it wraps only where the buffer is larger than the field -/
theorem kept_reserve (hs : Kept size s) (hsize : size ≤ PTRDIFF_MAX) (len : ℕ) (pad : ℤ) {m : NlMsg}
    (hm : m.nmSize = (nlmsgReserve s.msg len pad).1.nmSize)
    (hlen : m.nlmsgLen = (nlmsgReserve s.msg len pad).1.nlmsgLen) : Kept size { s with msg := m } := by
  by_cases hno : NoRoom s.msg len pad
  · rw [nlmsgReserve_refused hno] at hm hlen
    exact ⟨hm.trans hs.same, hlen ▸ hs.le, hlen ▸ hs.u32, fun hlt => hlen ▸ hs.small hlt, hs.starts⟩
  · rw [nlmsgReserve_done hno] at hm hlen
    have hext : m.nlmsgLen = (s.msg.nlmsgLen + reserveLen len pad) % 4294967296 := hlen
    have hle := hs.le
    have h32 := hs.u32
    unfold NoRoom at hno
    rw [not_or, hs.same] at hno
    have hres := reserveLen_lt pad ((not_lt.1 hno.1).trans hsize)
    unfold PTRDIFF_MAX at hsize
    refine ⟨hm.trans hs.same, ?_, ?_, fun hlt => ⟨?_, (hs.small hlt).2⟩, hs.starts⟩
    · show m.nlmsgLen ≤ size
      omega
    · show m.nlmsgLen < 4294967296
      omega
    · show 16 ≤ m.nlmsgLen
      have hge := (hs.small hlt).1
      omega

theorem reserved_total (m : NlMsg) (t n : ℤ) :
    (reserved m t n).nlmsgLen = toU32 (toInt32 (nlmsgAlign m.nlmsgLen + nlaTotalSize n)) := by
  rw [reserved]

omit [HostOrder] in
/-- an `int` that is within the buffer as a `size_t` is not negative -/
theorem total_within {total : ℤ} (hsize : size ≤ PTRDIFF_MAX) (hroom : toU64 total ≤ size) :
    toU32 total ≤ size ∧ toU32 total < 4294967296 := by
  unfold toU64 at hroom
  unfold toU32
  unfold PTRDIFF_MAX at hsize
  omega

/-- an attribute that is put ends within the buffer -/
theorem reserved_within {m : NlMsg} {n : ℤ} (href : ¬ Refused m n) (hsize : m.nmSize ≤ PTRDIFF_MAX) (t : ℤ) :
    (reserved m t n).nlmsgLen ≤ m.nmSize ∧ (reserved m t n).nlmsgLen < 4294967296 := by
  rw [Refused, not_or, not_lt, not_lt] at href
  rw [reserved_total]
  exact total_within hsize href.2

omit [HostOrder] in
/-- a bare header starts below two gigabytes, or the length wraps behind it -/
theorem nest_start_le {m : NlMsg} (href : ¬ Refused m 0) (hsize : m.nmSize ≤ PTRDIFF_MAX) : Started (nlmsgTail m) := by
  rw [Refused, not_or, not_lt, not_lt] at href
  have hroom := href.2
  have hfour : nlaTotalSize 0 = 4 := by decide
  rw [hfour] at hroom
  unfold toU64 toInt32 at hroom
  unfold PTRDIFF_MAX at hsize
  unfold Started MAX_START LAST_START nlmsgTail nlmsgAlign
  unfold nlmsgAlign at hroom
  split_ifs at hroom <;> omega

omit [HostOrder] in
/-- in a buffer of less than twenty bytes there is no room for a header -/
theorem refused_of_small {m : NlMsg} (hge : 16 ≤ m.nlmsgLen) (hle : m.nlmsgLen ≤ m.nmSize) (hsmall : m.nmSize < 20) {n : ℤ}
    (hint : n < 2147483648) : Refused m n := by
  rw [Refused, or_iff_not_imp_left]
  intro hn
  unfold nlmsgAlign nlaTotalSize alignInt nlaAttrSize NLA_HDRLEN toU64 toInt32
  split_ifs <;> omega

/-- what a put leaves: the message as it was, or the attribute -/
theorem put_cases (m : NlMsg) (t n : ℤ) (data : List UInt8) :
    (Refused m n ∧ ∃ err < 0, nlaPut m t n data = (m, err)) ∨
    (¬ Refused m n ∧ nlaPut m t n data = (filled m t n data, 0)) := by
  by_cases href : Refused m n
  · refine Or.inl ⟨href, _, ?_, nlaPut_refused href t data⟩
    split_ifs
    · decide
    · decide
  · exact Or.inr ⟨href, nlaPut_done href t data⟩

theorem filled_lens (m : NlMsg) (t n : ℤ) (data : List UInt8) :
    (filled m t n data).nlmsgLen = (reserved m t n).nlmsgLen ∧ (filled m t n data).nmSize = m.nmSize := by
  unfold filled
  split_ifs
  · exact ⟨rfl, rfl⟩
  · exact ⟨rfl, rfl⟩

theorem kept_put (hs : Kept size s) (hsize : size ≤ PTRDIFF_MAX) (t : ℤ) {n : ℤ} (hint : n < 2147483648)
    (data : List UInt8) : Kept size { s with msg := (nlaPut s.msg t n data).1 } := by
  have hsame := hs.same
  rcases put_cases s.msg t n data with ⟨-, err, -, hput⟩ | ⟨href, hput⟩
  · rw [hput]
    exact hs
  · obtain ⟨hlen, hnm⟩ := filled_lens s.msg t n data
    obtain ⟨hle, h32⟩ := reserved_within href (hsame ▸ hsize) t
    have hlarge : ¬ size < 20 := fun hlt =>
      href (refused_of_small (hs.small hlt).1 (hsame ▸ hs.le) (hsame ▸ hlt) hint)
    rw [hput]
    exact ⟨hnm.trans hsame, hlen ▸ hsame ▸ hle, hlen ▸ h32, fun hlt => absurd hlt hlarge, hs.starts⟩

theorem kept_nestStart (hs : Kept size s) (hsize : size ≤ PTRDIFF_MAX) (t : ℤ) : Kept size (startNest s t) := by
  have hput := kept_put hs hsize ((NLA_F_NESTED ||| toU16 t : ℕ) : ℤ) (n := 0) (by decide) []
  rcases put_cases s.msg ((NLA_F_NESTED ||| toU16 t : ℕ) : ℤ) 0 [] with ⟨-, err, herr, hres⟩ | ⟨href, hres⟩
  · rw [startNest_eq (nlaNestStart_of_put hres), if_pos herr]
    exact hs
  · rw [hres] at hput
    rw [startNest_eq (nlaNestStart_of_put hres), if_neg (lt_irrefl (0 : ℤ))]
    have hlarge : ¬ size < 20 := fun hlt =>
      href (refused_of_small (hs.small hlt).1 (hs.same ▸ hs.le) (hs.same ▸ hlt) (by decide))
    refine ⟨hput.same, hput.le, hput.u32, fun hlt => absurd hlt hlarge, fun nest hnest => ?_⟩
    rcases List.mem_cons.1 hnest with rfl | hold
    · exact nest_start_le href (hs.same ▸ hsize)
    · exact hs.starts nest hold

/-- **One call** -/
theorem kept_step (hs : Kept size s) (hsize : size ≤ PTRDIFF_MAX) {c : Call} (hc : Adds c) {s' : State}
    (h : step s c = some s') : Kept size s' := by
  cases c with
  | append data pad =>
    simp only [step, Option.some.injEq] at h
    subst h
    obtain ⟨hlen, hnm⟩ := nlmsgAppend_len s.msg data pad
    exact kept_reserve hs hsize data.length pad hnm hlen
  | reserve len pad =>
    simp only [step, Option.some.injEq] at h
    subst h
    exact kept_reserve hs hsize len pad rfl rfl
  | put t n data =>
    simp only [step, Option.some.injEq] at h
    subst h
    exact kept_put hs hsize t hc data
  | nestStart t =>
    simp only [step, Option.some.injEq] at h
    subst h
    exact kept_nestStart hs hsize t
  | nestEnd keepEmpty => exact hc.elim
  | nestCancel => exact hc.elim

/-- **Runs** -/
theorem kept_run (hsize : size ≤ PTRDIFF_MAX) (cs : List Call) (hs : Kept size s) (hcs : ∀ c ∈ cs, Adds c) {s' : State}
    (hr : run s cs = some s') : Kept size s' := by
  induction cs generalizing s with
  | nil =>
    cases hr
    exact hs
  | cons c cs ih =>
    obtain ⟨s1, hstep, hrest⟩ := Option.bind_eq_some_iff.1 hr
    exact ih (kept_step hs hsize (hcs c List.mem_cons_self) hstep) (fun c' hc' => hcs c' (List.mem_cons_of_mem c hc'))
      hrest

/-! ## Padding -/

/-- there is always room for the padding: the end of the buffer is aligned, or there is no nest, or no nest gets there. Right
below four gigabytes a nest can start behind the buffer. -/
def PaddingFits (size : ℕ) : Prop :=
  size % 4 = 0 ∨ size < 20 ∨ (2147549172 ≤ size ∧ (size < 4294967289 ∨ 4294967296 ≤ size))

omit [HostOrder] in
/-- the padding goes up to the next multiple of four, also where that leaves the field -/
theorem pad_to (len : ℕ) : toU32 ((nlmsgAlign len : ℤ) - len) + len = align4 len := by
  unfold toU32 nlmsgAlign align4
  omega

/-- in a nest that is not dropped the padding is refused only where the end of the buffer is not aligned -/
theorem pad_fits (hs : Kept size s) (hsize : size ≤ PTRDIFF_MAX) (hfits : PaddingFits size) {nest : Nest}
    (hnest : nest ∈ s.nests) (keepEmpty : Bool) : ¬ PadAborts s.msg nest.start keepEmpty := by
  rintro ⟨hkept, -, hnone⟩
  have hno : NoRoom (closed s.msg nest.start) (toU32 ((nlmsgAlign s.msg.nlmsgLen : ℤ) - s.msg.nlmsgLen)) 0 := by
    by_contra hroom
    rw [nlmsgReserve_done hroom] at hnone
    cases hnone
  have hres : ∀ len, reserveLen len 0 = len := fun len => if_pos rfl
  have hnm : (closed s.msg nest.start).nmSize = size := hs.same
  have hlen : (closed s.msg nest.start).nlmsgLen = s.msg.nlmsgLen := rfl
  have hle := hs.le
  have h32 := hs.u32
  have hpad := pad_to s.msg.nlmsgLen
  rw [NoRoom, hres, hnm, hlen, hpad] at hno
  have hsmall : ¬ size < 20 := by
    intro hlt
    rw [(hs.small hlt).2] at hnest
    cases hnest
  obtain ⟨hmod, hstart⟩ := hs.starts nest hnest
  have hshort : toU64 ((nlmsgTail s.msg : ℤ) - nest.start) ≤ 65535 := not_lt.1 fun hbig => hkept (Or.inl hbig)
  unfold nlmsgTail toU64 nlmsgAlign at hshort
  unfold align4 at hno hpad
  unfold MAX_START LAST_START at hstart
  unfold PTRDIFF_MAX at hsize
  unfold PaddingFits at hfits
  omega

end

/-! ## Content that ends unaligned -/

section

variable {m : NlMsg}

omit [HostOrder] in
/-- an append of so many bytes, where there is room -/
theorem append_plain {data : List UInt8} (hroom : m.nlmsgLen + data.length ≤ m.nmSize)
    (h32 : m.nlmsgLen + data.length < 4294967296) : ∃ m', nlmsgAppend m data 0 = (m', 0) ∧
      m'.nlmsgLen = m.nlmsgLen + data.length ∧ m'.nmSize = m.nmSize := by
  have hres : reserveLen data.length 0 = data.length := if_pos rfl
  have hno : ¬ NoRoom m data.length 0 := by
    rw [NoRoom, hres]
    omega
  rw [nlmsgAppend, nlmsgReserve_done hno, extended_plain h32]
  exact ⟨_, rfl, rfl, rfl⟩

/-- a nest that is started, where there is room as lengths are compared -/
theorem nestStart_plain (hroom : toU64 (toInt32 ((nlmsgTail m : ℤ) + 4)) ≤ m.nmSize) (t : ℤ) :
    ∃ m', nlaNestStart m t = (m', some (nlmsgTail m)) ∧ m'.nlmsgLen = toU32 (toInt32 ((nlmsgTail m : ℤ) + 4)) ∧
      m'.nmSize = m.nmSize := by
  have hfour : nlaTotalSize 0 = 4 := by decide
  have href : ¬ Refused m 0 := by
    rw [Refused, hfour]
    exact not_or.2 ⟨lt_irrefl _, not_lt.2 hroom⟩
  obtain ⟨hlen, hnm⟩ := filled_lens m ((NLA_F_NESTED ||| toU16 t : ℕ) : ℤ) 0 []
  have hreserved := reserved_total m ((NLA_F_NESTED ||| toU16 t : ℕ) : ℤ) 0
  rw [hfour] at hreserved
  refine ⟨_, ?_, hlen.trans hreserved, hnm⟩
  rw [nlaNestStart_of_put (nlaPut_done href _ []), if_neg (lt_irrefl (0 : ℤ))]

end

/-- a message up to `first` bytes, a nest, and content up to the end of the buffer, which is not aligned -/
theorem aborts_of {n : NlMsg} (hn : Fresh n) {first : ℕ} (hge : 16 ≤ first) (hle : first ≤ n.nmSize)
    (hmod : n.nmSize % 4 ≠ 0) (h32 : n.nmSize < 4294967293)
    (hroom : toU64 (toInt32 ((nlmsgAlign first : ℤ) + 4)) ≤ n.nmSize)
    (hshort : toU64 ((nlmsgAlign n.nmSize : ℤ) - nlmsgAlign first) ≤ 65535)
    (hfull : toU64 ((nlmsgAlign n.nmSize : ℤ) - nlmsgAlign first) ≠ 4) (keepEmpty : Bool) : ¬ NeverAborts n keepEmpty := by
  have hstart : n.nlmsgLen + (List.replicate (first - 16) (0 : UInt8)).length = first := by
    rw [List.length_replicate, hn.len]
    omega
  obtain ⟨m1, happend, hlen1, hsize1⟩ := @append_plain n (List.replicate (first - 16) 0)
    (by rw [hstart]; exact hle) (by rw [hstart]; omega)
  rw [hstart] at hlen1
  have htail : nlmsgTail m1 = nlmsgAlign first := by rw [nlmsgTail, hlen1]
  obtain ⟨m2, hnest, hlen2, hsize2⟩ := nestStart_plain (m := m1) (by rw [htail, hsize1]; exact hroom) 1
  rw [htail] at hnest hlen2
  have hin : m2.nlmsgLen ≤ n.nmSize := by
    rw [hlen2]
    exact (total_within hn.le hroom).1
  have hend : m2.nlmsgLen + (List.replicate (n.nmSize - m2.nlmsgLen) (0 : UInt8)).length = n.nmSize := by
    rw [List.length_replicate]
    omega
  obtain ⟨m3, hcontent, hlen3, hsize3⟩ := @append_plain m2 (List.replicate (n.nmSize - m2.nlmsgLen) 0)
    (by rw [hend, hsize2, hsize1]) (by rw [hend]; omega)
  rw [hend] at hlen3
  have hnm : m3.nmSize = n.nmSize := hsize3.trans (hsize2.trans hsize1)
  intro hnever
  have hrun : run ⟨n, []⟩ [.append (List.replicate (first - 16) 0) 0, .nestStart 1,
      .append (List.replicate (n.nmSize - m2.nlmsgLen) 0) 0] = some ⟨m3, [⟨nlmsgAlign first, m1.nlmsgLen⟩]⟩ := by
    have hopen := startNest_eq (s := ⟨m1, []⟩) hnest
    simp only [run, step, Option.bind_some, happend, hopen, hcontent]
    rfl
  refine hnever _ _ ?_ hrun ⟨nlmsgAlign first, m1.nlmsgLen⟩ (List.mem_singleton.2 rfl) ⟨?_, ?_, ?_⟩
  · intro c hc
    simp only [List.mem_cons, List.not_mem_nil, or_false] at hc
    rcases hc with rfl | rfl | rfl
    · trivial
    · trivial
    · trivial
  · show ¬ (USHRT_MAX < toU64 ((nlmsgAlign m3.nlmsgLen : ℤ) - nlmsgAlign first) ∨
      (keepEmpty = false ∧ toU64 ((nlmsgAlign m3.nlmsgLen : ℤ) - nlmsgAlign first) = NLA_HDRLEN))
    rw [hlen3]
    exact not_or.2 ⟨not_lt.2 hshort, fun hempty => hfull hempty.2⟩
  · show 0 < toU32 ((nlmsgAlign m3.nlmsgLen : ℤ) - m3.nlmsgLen)
    rw [hlen3]
    unfold toU32 nlmsgAlign
    omega
  · show (nlmsgReserve (closed m3 (nlmsgAlign first)) (toU32 ((nlmsgAlign m3.nlmsgLen : ℤ) - m3.nlmsgLen)) 0).2 = none
    have hres : ∀ len, reserveLen len 0 = len := fun len => if_pos rfl
    have hclosed : (closed m3 (nlmsgAlign first)).nmSize = n.nmSize ∧ (closed m3 (nlmsgAlign first)).nlmsgLen = n.nmSize :=
      ⟨hnm, hlen3⟩
    rw [nlmsgReserve_refused]
    rw [NoRoom, hres, hclosed.1, hclosed.2, hlen3]
    right
    unfold toU32 nlmsgAlign
    omega

theorem never_aborts {n : NlMsg} (hn : Fresh n) (hfits : PaddingFits n.nmSize) (keepEmpty : Bool) :
    NeverAborts n keepEmpty := by
  intro cs s hcs hr nest hnest
  exact pad_fits (kept_run hn.le cs (kept_fresh hn) hcs hr) hn.le hfits hnest keepEmpty

/-- the end of the buffer is not aligned, and a nest gets there -/
def PaddingShort (size : ℕ) : Prop := 20 < size ∧ size < 2147549172 ∧ size % 4 ≠ 0

theorem aborts {n : NlMsg} (hn : Fresh n) (hshort : PaddingShort n.nmSize) (keepEmpty : Bool) :
    ¬ NeverAborts n keepEmpty := by
  obtain ⟨hgt, hlt, hmod⟩ := hshort
  -- the nest starts eight bytes before the end, or as far behind as it can
  obtain ⟨first, hfirst⟩ : ∃ first, first = min (n.nmSize / 4 * 4 - 4) MAX_START := ⟨_, rfl⟩
  unfold MAX_START at hfirst
  have htail : nlmsgAlign first = first := by
    unfold nlmsgAlign
    omega
  have hend : nlmsgAlign n.nmSize = n.nmSize / 4 * 4 + 4 := by
    unfold nlmsgAlign
    omega
  refine @aborts_of _ n hn first (by omega) (by omega) hmod (by omega) ?_ ?_ ?_ keepEmpty
  · rw [htail, toInt32_of_mem (by omega) (by omega)]
    unfold toU64
    omega
  · rw [htail, hend]
    unfold toU64
    omega
  · rw [htail, hend]
    unfold toU64
    omega

/-- **Closing a nest never aborts**, whatever was added, where the padding fits into the buffer the message was allocated
with, and where the end of the buffer is not aligned and a nest gets there, it can. -/
theorem nest_end_never_aborts {n : NlMsg} (hn : Allocated n) (keepEmpty : Bool) :
    (PaddingFits n.nmSize → NeverAborts n keepEmpty) ∧ (PaddingShort n.nmSize → ¬ NeverAborts n keepEmpty) :=
  ⟨fun hfits => never_aborts hn.fresh hfits keepEmpty, fun hshort => aborts hn.fresh hshort keepEmpty⟩

omit [HostOrder] in
/-- messages of 64 bytes and of 22 -/
theorem nest_end_never_aborts_64 : ∃ n n', nlmsgAllocSize 64 = some n ∧ nlmsgAllocSize 22 = some n' ∧
    @NeverAborts ⟨false⟩ n false ∧ ¬ @NeverAborts ⟨false⟩ n' false := by
  let order : HostOrder := ⟨false⟩
  obtain ⟨n, hn⟩ : ∃ n, nlmsgAllocSize 64 = some n := ⟨_, rfl⟩
  obtain ⟨n', hn'⟩ : ∃ n', nlmsgAllocSize 22 = some n' := ⟨_, rfl⟩
  have hfits : PaddingFits n.nmSize := by
    cases hn
    exact Or.inl rfl
  have hshort : PaddingShort n'.nmSize := by
    cases hn'
    exact ⟨by decide, by decide, by decide⟩
  exact ⟨n, n', hn, hn', (nest_end_never_aborts (Or.inr (Or.inl ⟨64, hn⟩)) false).1 hfits,
    (nest_end_never_aborts (Or.inr (Or.inl ⟨22, hn'⟩)) false).2 hshort⟩

omit [HostOrder] in
/-- **A nest that cannot be closed**: one byte in a nest, in a message of 22 bytes -/
theorem nest_end_aborts_22 : ∃ n s s', nlmsgAllocSize 22 = some n ∧
    @run ⟨false⟩ ⟨n, []⟩ [.nestStart 1, .append [7] 0] = some s ∧ s.nests = [⟨16, 16⟩] ∧ s.msg.bug = false ∧
    @PadAborts ⟨false⟩ s.msg 16 false ∧ @step ⟨false⟩ s (.nestEnd false) = some s' ∧ s'.msg.bug = true := by
  let order : HostOrder := ⟨false⟩
  refine ⟨_, _, _, rfl, rfl, rfl, rfl, ⟨?_, ?_, ?_⟩, rfl, ?_⟩
  · unfold NestDropped
    decide
  · decide
  · rfl
  · rfl

end Libnl.NestEnd
