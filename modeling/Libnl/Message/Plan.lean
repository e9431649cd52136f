/-
Builders of messages, and what they make of puts that fail.

A builder puts attributes and bytes, opens nests and closes them. Where there is no room, some puts make it fail; after
others it leaves the function it is in by a label at the end, and whoever called that function goes on. A plan says for every
put and every nest which it is. What a plan leaves behind depends on sizes alone.

- `run`: what the plan does to a message. `walk`: the same for lengths. `run_agrees`: the two agree.
- `Clean`: there is room for everything, and no nest is too long. `run_clean`: then all of it is written.
- `wrote_iff`: a plan without labels writes everything just if it is clean.
- `Does`: a function does what a plan says. `Does.seq`, `Does.nest`: functions in a row, and in a nest.
-/
import Mathlib.Tactic
import Libnl.Message.Fields
import Libnl.Message.NestEnd

namespace Libnl.Plans

open Bytes Msg Attr AttrTree AttrStream Writer
open Builder (reserve_total_emod)
open Fields (allocSimple_some)
open NestEnd (reserved_total filled_lens)
open Libnl.Frame (Refused NoRoom nlaPut_refused nlaPut_done nlmsgReserve_refused filled reserved filled_buf reserved_below)

/-! ## Pieces -/

/-- what is put: an attribute, or bytes in a multiple of the alignment -/
inductive Piece where
  | attr (l : Leaf)
  | bytes (bs : List UInt8)

/-- what it takes -/
def Piece.size : Piece → ℕ
  | .attr l => align4 (4 + l.payload.length)
  | .bytes bs => bs.length

/-- it can be put behind `u` bytes or less -/
def Piece.WF (u : ℕ) : Piece → Prop
  | .attr l => l.type < 65536 ∧ l.payload.length ≤ 2147483640
  | .bytes bs => bs ≠ [] ∧ bs.length % 4 = 0 ∧ u + bs.length ≤ 2147483647

/-- its length fits the 16 bits of the header -/
def Piece.Short : Piece → Prop
  | .attr l => 4 + l.payload.length ≤ 65535
  | .bytes _ => True

section
variable [HostOrder]

def Piece.image : Piece → List UInt8
  | .attr l => encLeaves [l]
  | .bytes bs => bs

def Piece.write (msg : NlMsg) : Piece → NlMsg × ℤ
  | .attr l => nlaPut msg l.type l.payload.length l.payload
  | .bytes bs => nlmsgAppend msg bs 4

theorem Piece.image_length (p : Piece) : p.image.length = p.size := by
  cases p with
  | attr l =>
    show (encLeaves [l]).length = align4 (4 + l.payload.length)
    rw [encLeaves_cons, encLeaves_nil, List.append_nil, encLeaf_length]
  | bytes bs => rfl

/-- the bytes a message can have -/
def limit (m : NlMsg) : ℕ := min m.nmSize 2147483647

omit [HostOrder] in
theorem room_iff {m : NlMsg} {n : ℕ} : Room m n ↔ m.nlmsgLen + n ≤ limit m :=
  ⟨fun h => le_min h.size h.int, fun h => ⟨h.trans (min_le_left _ _), h.trans (min_le_right _ _)⟩⟩

omit [HostOrder] in
theorem limit_wrote {m m' : NlMsg} {a : List UInt8} (hw : Wrote m m' a) : limit m' = limit m := by
  rw [limit, limit, hw.size]

omit [HostOrder] in
theorem reserveLen_aligned {n : ℕ} (hmod : n % 4 = 0) (hlt : n < 2 ^ 31) : reserveLen n 4 = n := by
  have h3 : toInt32 (4 - 1) = 3 := by decide
  have hmask : toU64 (-(3 : ℤ) - 1) = 2 ^ 64 - 2 ^ 2 := by decide
  have hsum : toU64 ((n : ℤ) + 3) = n + 3 := by
    have := toU64_of_nonneg (x := (n : ℤ) + 3) (by omega) (by omega)
    omega
  rw [reserveLen, if_neg (by decide), h3, hmask, hsum]
  exact and_align_mask hmod (by omega)

omit [HostOrder] in
/-- the comparison of `nla_reserve`, which is made with an `int` -/
theorem refused_iff {m : NlMsg} (hm : Tidy m) {n : ℕ} (hn : n ≤ 2147483640) :
    Refused m n ↔ ¬ m.nlmsgLen + align4 (4 + n) ≤ limit m := by
  have hsize := hm.size
  have hlt := hm.lt
  have hmod := hm.mod
  have hmodn := align4_mod (4 + n)
  have hltn := align4_lt (4 + n)
  have halign := align4_of_mod hmod
  unfold PTRDIFF_MAX at hsize
  rw [Refused, reserve_total_emod, halign, or_iff_right (by omega)]
  generalize align4 (4 + n) = k at hmodn hltn ⊢
  have hlimit : limit m = min m.nmSize 2147483647 := rfl
  by_cases h31 : m.nlmsgLen + k < 2147483648
  · have h32 := toInt32_of_mem (x := (m.nlmsgLen + k : ℕ)) (by omega) (by omega)
    have h64 := toU64_of_nonneg (x := (m.nlmsgLen + k : ℕ)) (by omega) (by omega)
    rw [h32]
    omega
  · -- as an `int` the total is negative, and as a `size_t` larger than any buffer
    have hneg : toInt32 (m.nlmsgLen + k : ℕ) = (m.nlmsgLen + k : ℕ) - 4294967296 := by
      unfold toInt32
      split_ifs
      · omega
      · omega
    have hbig := toU64_of_neg (x := toInt32 (m.nlmsgLen + k : ℕ)) (by omega) (by omega)
    exact iff_of_true (by omega) (by omega)

/-- an attribute of any length that is put -/
theorem nlaPut_wrote {m : NlMsg} (hm : Tidy m) {n : ℕ} (hn : n ≤ 2147483640) (t : ℤ) (data : List UInt8)
    (hroom : m.nlmsgLen + align4 (4 + n) ≤ limit m) :
    ∃ m' a, nlaPut m t n data = (m', 0) ∧ Wrote m m' a ∧ a.length = align4 (4 + n) := by
  have hdone := nlaPut_done (fun href => (refused_iff hm hn).1 href hroom) t data
  have hr : Room m (align4 (4 + n)) := room_iff.2 hroom
  have hsize : m.nlmsgLen + align4 (4 + n) ≤ m.nmSize := hr.size
  have hint : m.nlmsgLen + align4 (4 + n) ≤ 2147483647 := hr.int
  have hlen : (filled m t n data).nlmsgLen = m.nlmsgLen + align4 (4 + n) := by
    have h32 : toInt32 ((m.nlmsgLen + align4 (4 + n) : ℕ) : ℤ) = (m.nlmsgLen + align4 (4 + n) : ℕ) :=
      toInt32_of_mem (by omega) (by omega)
    rw [(filled_lens m t n data).1, reserved_total, reserve_total_emod, align4_of_mod hm.mod, h32]
    unfold toU32
    omega
  have hmsize : (filled m t n data).nmSize = m.nmSize := (filled_lens m t n data).2
  have htail : nlmsgTail m = m.nlmsgLen := hm.tail
  have hmod := hm.mod
  have hmodn := align4_mod (4 + n)
  refine ⟨_, readBytes (filled m t n data).buf m.nlmsgLen (align4 (4 + n)), hdone, ⟨⟨?_, ?_, ?_⟩, ?_, hmsize, ?_, ?_⟩,
    readBytes_length _ _ _⟩
  · rw [hlen]
    omega
  · rw [hlen]
    omega
  · rw [hmsize]
    exact hm.size
  · rw [hlen, readBytes_length]
  · intro i hi
    simp [readBytes]
  · intro i hi
    rw [← htail] at hi
    rw [filled_buf t n data (Or.inl (by omega)), reserved_below t (Int.natCast_nonneg n) hi]

/-- **A piece with room**; what comes to stand in the message is its image, unless it is too long. -/
theorem Piece.write_room {m : NlMsg} (hm : Tidy m) {p : Piece} {u : ℕ} (hp : p.WF u)
    (hroom : m.nlmsgLen + p.size ≤ limit m) :
    ∃ m' a, p.write m = (m', 0) ∧ Wrote m m' a ∧ a.length = p.size ∧ (p.Short → a = p.image) := by
  cases p with
  | attr l =>
    obtain ⟨htype, hlen⟩ := hp
    by_cases hshort : 4 + l.payload.length ≤ 65535
    · have hl : l.WF := ⟨htype, hshort⟩
      have hroom' : Room m (encLeaves [l]).length := by
        have himage : (encLeaves [l]).length = Piece.size (.attr l) := Piece.image_length (.attr l)
        rw [himage]
        exact room_iff.2 hroom
      obtain ⟨m', hput, hw⟩ := put_leaf hm hl hroom'
      have hsize := Piece.image_length (.attr l)
      exact ⟨m', Piece.image (.attr l), hput, hw, hsize, fun _ => rfl⟩
    · obtain ⟨m', a, hput, hw, hsize⟩ := nlaPut_wrote hm hlen l.type l.payload hroom
      exact ⟨m', a, hput, hw, hsize, fun h => absurd h hshort⟩
  | bytes bs =>
    obtain ⟨m', hput, hw⟩ := nlmsgAppend_aligned hm hp.2.1 (room_iff.2 hroom)
    exact ⟨m', bs, hput, hw, rfl, fun _ => rfl⟩

/-- **A piece without room** leaves the message as it is. -/
theorem Piece.write_full {m : NlMsg} (hm : Tidy m) {p : Piece} {u : ℕ} (hp : p.WF u) (hu : m.nlmsgLen ≤ u)
    (hroom : ¬ m.nlmsgLen + p.size ≤ limit m) : ∃ e < 0, p.write m = (m, e) := by
  cases p with
  | attr l =>
    have href := nlaPut_refused ((refused_iff hm hp.2).2 hroom) l.type l.payload
    refine ⟨_, ?_, href⟩
    split_ifs
    · decide
    · decide
  | bytes bs =>
    obtain ⟨-, hmod, hint⟩ := hp
    have hfull : NoRoom m bs.length 4 := by
      have hroom : ¬ m.nlmsgLen + bs.length ≤ min m.nmSize 2147483647 := hroom
      right
      rw [reserveLen_aligned hmod (by omega)]
      omega
    have happend : nlmsgAppend m bs 4 = (m, -NLE_NOMEM) := by
      rw [nlmsgAppend, nlmsgReserve_refused hfull]
    exact ⟨_, by decide, happend⟩

/-- the start of a nest without room leaves the message as it is -/
theorem nlaNestStart_refused {m : NlMsg} (hm : Tidy m) (t : ℤ) (hroom : ¬ m.nlmsgLen + 4 ≤ limit m) :
    nlaNestStart m t = (m, none) := by
  have href : Refused m (0 : ℕ) := (refused_iff hm (by omega)).2 hroom
  rw [nlaNestStart_of_put (nlaPut_refused href _ _), if_pos (by decide)]

end

/-! ## Messages to begin with -/

/-- the bytes a message of the default size can have -/
def capOf (defaultMsgSize : ℕ) : ℕ := min (max defaultMsgSize 16) 2147483647

theorem alloc_none {size : ℕ} (type flags : ℕ) (hbig : PTRDIFF_MAX < size) : nlmsgAllocSimple size type flags = none := by
  have hge : ¬ size < 16 := by
    unfold PTRDIFF_MAX at hbig
    omega
  rw [nlmsgAllocSimple, nlmsgAlloc, nlmsgAllocRaw, if_neg hge, if_pos hbig]
  rfl

/-- the message to begin with -/
theorem alloc_tidy {size : ℕ} (type flags : ℕ) (hsize : size ≤ PTRDIFF_MAX) :
    ∃ m0, nlmsgAllocSimple size type flags = some m0 ∧ Tidy m0 ∧ m0.nlmsgLen = 16 ∧ limit m0 = capOf size := by
  obtain ⟨m0, halloc, hfresh, hle, hexact⟩ := allocSimple_some (t := type) (f := flags) hsize
  refine ⟨m0, halloc, tidy_of_fresh hfresh, hfresh.len, ?_⟩
  have hmax : m0.nmSize = max size 16 := by
    by_cases hsmall : 16 ≤ size
    · rw [hexact hsmall, max_eq_left hsmall]
    · have hsimple : nlmsgAllocSimple size type flags = nlmsgAllocSimple 16 type flags := by
        have hlt : size < 16 := by omega
        have hnot : ¬ (16 : ℕ) < 16 := lt_irrefl 16
        simp only [nlmsgAllocSimple, nlmsgAlloc, nlmsgAllocRaw, if_pos hlt, if_neg hnot]
      rw [hsimple] at halloc
      obtain ⟨m1, halloc1, -, -, hexact1⟩ := allocSimple_some (t := type) (f := flags) (by decide : 16 ≤ PTRDIFF_MAX)
      rw [halloc] at halloc1
      cases halloc1
      rw [hexact1 (le_refl 16), max_eq_right (by omega)]
  rw [limit, hmax, capOf]

/-! ## Plans -/

/-- how a builder ends: it fails, or follows a null pointer; or it leaves something behind, and the function by a label or at
its end -/
inductive Res (α : Type) where
  | fail
  | crash
  | left (a : α)
  | ok (a : α)

namespace Res

variable {α : Type}

/-- what comes next, in the same function -/
def next (r : Res α) (f : α → Res α) : Res α :=
  match r with
  | .ok a => f a
  | r => r

/-- back in the function that called -/
def back : Res α → Res α
  | .left a => .ok a
  | r => r

/-- after the content of a nest, which is closed by `f`; by way of the label it is closed there, or it is not closed -/
def endNest (close : Bool) (f : α → α) : Res α → Res α
  | .ok a => .ok (f a)
  | .left a => if close then .ok (f a) else .left a
  | r => r

/-- whatever is left behind has the property -/
def All (P : α → Prop) : Res α → Prop
  | .left a => P a
  | .ok a => P a
  | _ => True

/-- two ends of one kind, with related things left behind -/
inductive Rel {β : Type} (R : α → β → Prop) : Res α → Res β → Prop where
  | fail : Rel R .fail .fail
  | crash : Rel R .crash .crash
  | left {a : α} {b : β} (h : R a b) : Rel R (.left a) (.left b)
  | ok {a : α} {b : β} (h : R a b) : Rel R (.ok a) (.ok b)

variable {β : Type} {P Q : α → Prop} {R S : α → β → Prop} {r : Res α} {s : Res β}

theorem All.next {f : α → Res α} (h : r.All P) (hkeep : ∀ a, P a → Q a) (hf : ∀ a, r = .ok a → P a → (f a).All Q) :
    (r.next f).All Q := by
  cases r with
  | fail => trivial
  | crash => trivial
  | left a => exact hkeep a h
  | ok a => exact hf a rfl h

theorem All.back (h : r.All P) (hkeep : ∀ a, P a → Q a) : r.back.All Q := by
  cases r with
  | fail => trivial
  | crash => trivial
  | left a => exact hkeep a h
  | ok a => exact hkeep a h

theorem All.endNest {close : Bool} {f : α → α} (h : r.All P) (hkeep : ∀ a, P a → Q a) (hf : ∀ a, P a → Q (f a)) :
    (r.endNest close f).All Q := by
  cases r with
  | fail => trivial
  | crash => trivial
  | left a =>
    cases close with
    | true => exact hf a h
    | false => exact hkeep a h
  | ok a => exact hf a h

theorem next_eq_ok {f : α → Res α} {a : α} (h : r.next f = .ok a) : ∃ b, r = .ok b ∧ f b = .ok a := by
  cases r with
  | fail => cases h
  | crash => cases h
  | left b => cases h
  | ok b => exact ⟨b, rfl, h⟩

theorem endNest_eq_ok {close : Bool} {f : α → α} {a : α} (h : r.endNest close f = .ok a) :
    ∃ b, a = f b ∧ (r = .ok b ∨ close = true ∧ r = .left b) := by
  cases r with
  | fail => cases h
  | crash => cases h
  | left b =>
    cases close with
    | true => exact ⟨b, (Res.ok.inj h).symm, Or.inr ⟨rfl, rfl⟩⟩
    | false => cases h
  | ok b => exact ⟨b, (Res.ok.inj h).symm, Or.inl rfl⟩

theorem Rel.mono (h : Rel R r s) (hRS : ∀ a b, R a b → S a b) : Rel S r s := by
  cases h with
  | fail => exact .fail
  | crash => exact .crash
  | left h => exact .left (hRS _ _ h)
  | ok h => exact .ok (hRS _ _ h)

theorem Rel.next {f : α → Res α} {g : β → Res β} (h : Rel R r s) (hkeep : ∀ a b, R a b → S a b)
    (hf : ∀ a b, s = .ok b → R a b → Rel S (f a) (g b)) : Rel S (r.next f) (s.next g) := by
  cases h with
  | fail => exact .fail
  | crash => exact .crash
  | left h => exact .left (hkeep _ _ h)
  | ok h => exact hf _ _ rfl h

theorem Rel.back (h : Rel R r s) : Rel R r.back s.back := by
  cases h with
  | fail => exact .fail
  | crash => exact .crash
  | left h => exact .ok h
  | ok h => exact .ok h

theorem Rel.endNest {close : Bool} {f : α → α} {g : β → β} (h : Rel R r s) (hkeep : ∀ a b, R a b → S a b)
    (hf : ∀ a b, R a b → S (f a) (g b)) : Rel S (r.endNest close f) (s.endNest close g) := by
  cases h with
  | fail => exact .fail
  | crash => exact .crash
  | left h =>
    cases close with
    | true => exact .ok (hf _ _ h)
    | false => exact .left (hkeep _ _ h)
  | ok h => exact .ok (hf _ _ h)

end Res

/-- what a builder does. A put or the start of a nest that is `hard` makes it fail; after another one that fails, the function
is left. A nest that is to `close` is closed in that case, and the function goes on. -/
inductive Plan where
  | done
  | fail
  | crash
  | put (p : Piece) (hard : Bool)
  | nest (type : ℕ) (hard close : Bool) (body : Plan)
  | seq (p q : Plan)
  | call (body : Plan)

namespace Plan

/-- where a nest begins and its content ends: what is left when it is closed -/
def closed (u v : ℕ) : ℕ := if v = u + 4 ∨ u + 65535 < v then u else v

/-- the lengths of the message, within a limit -/
def walk (cap : ℕ) : Plan → ℕ → Res ℕ
  | done, u => .ok u
  | fail, _ => .fail
  | crash, _ => .crash
  | put p hard, u => if u + p.size ≤ cap then .ok (u + p.size) else if hard then .fail else .left u
  | nest _ hard close body, u =>
    if u + 4 ≤ cap then (walk cap body (u + 4)).endNest close (closed u) else if hard then .fail else .left u
  | seq p q, u => (walk cap p u).next (walk cap q)
  | call body, u => (walk cap body u).back

/-- what it takes at most -/
def gross : Plan → ℕ
  | put p _ => p.size
  | nest _ _ _ body => 4 + gross body
  | seq p q => gross p + gross q
  | call body => gross body
  | _ => 0

/-- its pieces can be put where they stand, if it begins behind `u` bytes or less -/
def WF : Plan → ℕ → Prop
  | put p _, u => p.WF u
  | nest type _ _ body, u => type < 32768 ∧ WF body (u + 4)
  | seq p q, u => WF p u ∧ WF q (u + gross p)
  | call body, u => WF body u
  | _, _ => True

/-- pieces that make the builder fail -/
def puts (ps : List Piece) : Plan := ps.foldr (fun p q => seq (put p true) q) done

/-- the length stays between what was there and what the plan takes at most -/
structure Within (p : Plan) (u v : ℕ) : Prop where
  ge : u ≤ v
  le : v ≤ u + p.gross

theorem closed_cases (u v : ℕ) : closed u v = u ∨ closed u v = v := by
  unfold closed
  split_ifs
  · exact Or.inl rfl
  · exact Or.inr rfl

theorem Within.closed {body : Plan} {type u v : ℕ} {hard close : Bool} (h : Within body (u + 4) v) :
    Within (nest type hard close body) u v ∧ Within (nest type hard close body) u (closed u v) := by
  have hv : Within (nest type hard close body) u v := by
    obtain ⟨hge, hle⟩ := h
    refine ⟨by omega, ?_⟩
    show v ≤ u + (4 + body.gross)
    omega
  refine ⟨hv, ?_⟩
  rcases closed_cases u v with heq | heq
  · rw [heq]
    exact ⟨le_refl u, Nat.le_add_right _ _⟩
  · rw [heq]
    exact hv

theorem Within.seq {p q : Plan} {u v w : ℕ} (hp : Within p u v) (hq : Within q v w) : Within (p.seq q) u w := by
  obtain ⟨hge, hle⟩ := hp
  obtain ⟨hge', hle'⟩ := hq
  refine ⟨hge.trans hge', ?_⟩
  show w ≤ u + (p.gross + q.gross)
  omega

/-- **Lengths** stay within what the plan takes at most. -/
theorem walk_within (cap : ℕ) (p : Plan) (u : ℕ) : (walk cap p u).All (Within p u) := by
  induction p generalizing u with
  | done => exact ⟨le_refl u, le_refl u⟩
  | fail => trivial
  | crash => trivial
  | put p hard =>
    simp only [walk]
    split_ifs
    · exact ⟨Nat.le_add_right _ _, le_refl _⟩
    · trivial
    · exact ⟨le_refl u, Nat.le_add_right _ _⟩
  | nest type hard close body ih =>
    simp only [walk]
    split_ifs
    · exact (ih (u + 4)).endNest (fun v hv => hv.closed.1) fun v hv => hv.closed.2
    · trivial
    · exact ⟨le_refl u, Nat.le_add_right _ _⟩
  | seq p q ihp ihq =>
    refine (ihp u).next (fun v hv => ⟨hv.ge, hv.le.trans ?_⟩) fun v _ hv => ?_
    · exact Nat.add_le_add_left (Nat.le_add_right _ _) u
    · have hq := ihq v
      cases hw : walk cap q v with
      | fail => trivial
      | crash => trivial
      | left w =>
        rw [hw] at hq
        exact hv.seq hq
      | ok w =>
        rw [hw] at hq
        exact hv.seq hq
  | call body ih => exact (ih u).back fun v hv => ⟨hv.ge, hv.le⟩

section
variable [HostOrder]

/-- what follows the start of a nest -/
def inStarted (hard : Bool) (r : NlMsg × Option ℕ) (f : NlMsg → ℕ → Res NlMsg) : Res NlMsg :=
  match r.2 with
  | none => if hard then .fail else .left r.1
  | some start => f r.1 start

/-- what the builder does to a message -/
def run : Plan → NlMsg → Res NlMsg
  | done, msg => .ok msg
  | fail, _ => .fail
  | crash, _ => .crash
  | put p hard, msg =>
    let r := p.write msg
    if r.2 < 0 then if hard then .fail else .left r.1 else .ok r.1
  | nest type hard close body, msg =>
    inStarted hard (nlaNestStart msg type) fun msg start => (run body msg).endNest close fun msg => (nlaNestEnd msg start).1
  | seq p q, msg => (run p msg).next (run q)
  | call body, msg => (run body msg).back

theorem run_put (p : Piece) (hard : Bool) (m : NlMsg) : run (put p hard) m =
    if (p.write m).2 < 0 then if hard then .fail else .left (p.write m).1 else .ok (p.write m).1 := rfl

section
variable {type : ℕ} {hard close : Bool} {body : Plan} {m m1 : NlMsg}

theorem run_nest_some {start : ℕ} (h : nlaNestStart m type = (m1, some start)) :
    run (nest type hard close body) m = (run body m1).endNest close fun msg => (nlaNestEnd msg start).1 := by
  have hstart := congrArg (fun r => inStarted hard r fun msg start =>
    (run body msg).endNest close fun msg => (nlaNestEnd msg start).1) h
  exact hstart

theorem run_nest_none (h : nlaNestStart m type = (m1, none)) :
    run (nest type hard close body) m = if hard then .fail else .left m1 := by
  have hstart := congrArg (fun r => inStarted hard r fun msg start =>
    (run body msg).endNest close fun msg => (nlaNestEnd msg start).1) h
  exact hstart

end

/-- the bytes of a nest: there is none without anything in it -/
def nestImage (type : ℕ) (a : List UInt8) : List UInt8 := if a = [] then [] else encLeaves [⟨32768 + type, a⟩]

/-- all that is put, with every nest closed -/
def image : Plan → List UInt8
  | put p _ => p.image
  | nest type _ _ body => nestImage type (image body)
  | seq p q => image p ++ image q
  | call body => image body
  | _ => []

/-- there is room for everything, and nothing is too long -/
def Clean (cap : ℕ) : Plan → ℕ → Prop
  | done, _ => True
  | fail, _ => False
  | crash, _ => False
  | put p _, u => u + p.size ≤ cap ∧ p.Short
  | nest _ _ _ body, u => u + 4 ≤ cap ∧ Clean cap body (u + 4) ∧ 4 + (image body).length ≤ 65535
  | seq p q, u => Clean cap p u ∧ Clean cap q (u + (image p).length)
  | call body, u => Clean cap body u

/-- a length, and a message that has it and begins like another -/
structure Behind (m m' : NlMsg) (v : ℕ) : Prop where
  len : m'.nlmsgLen = v
  wrote : ∃ a, Wrote m m' a

omit [HostOrder] in
theorem Behind.refl {m : NlMsg} (hm : Tidy m) : Behind m m m.nlmsgLen := ⟨rfl, [], Wrote.nil hm⟩

omit [HostOrder] in
theorem Behind.trans {m m1 m2 : NlMsg} {u v : ℕ} (h1 : Behind m m1 u) (h2 : Behind m1 m2 v) : Behind m m2 v := by
  obtain ⟨a, ha⟩ := h1.wrote
  obtain ⟨b, hb⟩ := h2.wrote
  exact ⟨h2.len, a ++ b, ha.append hb⟩

/-- **A nest that is closed**: it is there with all of its content, or gone. -/
theorem nestEnd_wrote {m m1 m2 : NlMsg} {t : ℕ} {a : List UInt8} (hm : Tidy m)
    (h1 : Wrote m m1 (nlaHeader 4 (32768 + t))) (h2 : Wrote m1 m2 a) :
    ∃ b, Wrote m (nlaNestEnd m2 m.nlmsgLen).1 b ∧ (nlaNestEnd m2 m.nlmsgLen).1.nlmsgLen = closed m.nlmsgLen m2.nlmsgLen ∧
      (4 + a.length ≤ 65535 → b = nestImage t a) := by
  have hl1 := h1.len
  have hl2 := h2.len
  have hmod := hm.mod
  have hmod2 := h2.tidy.mod
  rw [nlaHeader_length] at hl1
  by_cases hnil : a = []
  · have hw := nest_dropped hm h1 h2 (Or.inl hnil)
    have hlen := hw.len
    rw [hnil] at hl2
    refine ⟨[], hw, ?_, fun _ => ?_⟩
    · have hbare : m2.nlmsgLen = m.nlmsgLen + 4 := by rw [hl2, hl1, List.length_nil]
      rw [hlen, closed, if_pos (Or.inl hbare)]
      rfl
    · rw [nestImage, if_pos hnil]
  · have hpos := List.length_pos_iff.2 hnil
    by_cases hbig : 4 + a.length ≤ 65535
    · obtain ⟨m3, hend, hw⟩ := nest_end h1 h2 hnil hbig
      have hlen := hw.len
      have himage : (encLeaves [⟨32768 + t, a⟩]).length = align4 (4 + a.length) := by
        rw [encLeaves_cons, encLeaves_nil, List.append_nil, encLeaf_length]
      have halign : align4 (4 + a.length) = 4 + a.length := align4_of_mod (by omega)
      rw [hend]
      refine ⟨_, hw, ?_, fun _ => ?_⟩
      · rw [hlen, himage, halign, closed, if_neg (by omega)]
        omega
      · rw [nestImage, if_neg hnil]
    · have hw := nest_dropped hm h1 h2 (Or.inr (by omega))
      have hlen := hw.len
      refine ⟨[], hw, ?_, fun hsmall => absurd hsmall hbig⟩
      rw [hlen, closed, if_pos (Or.inr (by omega))]
      rfl

/-- **The two agree**: what a plan leaves behind has the length that is told by lengths alone. -/
theorem run_agrees (p : Plan) {m : NlMsg} (hm : Tidy m) {u : ℕ} (hp : p.WF u) (hu : m.nlmsgLen ≤ u) :
    Res.Rel (Behind m) (run p m) (walk (limit m) p m.nlmsgLen) := by
  induction p generalizing m u with
  | done => exact .ok (Behind.refl hm)
  | fail => exact .fail
  | crash => exact .crash
  | put p hard =>
    have hwf : p.WF u := hp
    rw [run_put, walk]
    by_cases hroom : m.nlmsgLen + p.size ≤ limit m
    · obtain ⟨m', a, hput, hw, hlen, -⟩ := Piece.write_room hm hwf hroom
      have hbehind : Behind m m' (m.nlmsgLen + p.size) := ⟨by rw [hw.len, hlen], a, hw⟩
      rw [hput, if_neg (lt_irrefl 0), if_pos hroom]
      exact Res.Rel.ok hbehind
    · obtain ⟨e, he, hput⟩ := Piece.write_full hm hwf hu hroom
      have hbehind := Behind.refl hm
      rw [hput, if_pos he, if_neg hroom]
      cases hard with
      | true => exact Res.Rel.fail
      | false => exact Res.Rel.left hbehind
  | nest type hard close body ih =>
    obtain ⟨htype, hbody⟩ := hp
    rw [walk]
    by_cases hroom : m.nlmsgLen + 4 ≤ limit m
    · obtain ⟨m1, hstart, hw1⟩ := nlaNestStart_room hm type htype (room_iff.2 hroom)
      have hl1 := hw1.len
      rw [nlaHeader_length] at hl1
      rw [run_nest_some hstart, if_pos hroom]
      have hrel := ih hw1.tidy hbody (by omega)
      rw [limit_wrote hw1, hl1] at hrel
      refine hrel.endNest (fun m2 v h2 => ?_) fun m2 v h2 => ?_
      · exact Behind.trans ⟨rfl, _, hw1⟩ h2
      · obtain ⟨a, ha⟩ := h2.wrote
        obtain ⟨b, hb, hlen, -⟩ := nestEnd_wrote hm hw1 ha
        refine ⟨?_, b, hb⟩
        rw [hlen, h2.len]
    · rw [run_nest_none (nlaNestStart_refused hm type hroom), if_neg hroom]
      cases hard with
      | true => exact .fail
      | false => exact .left (Behind.refl hm)
  | seq p q ihp ihq =>
    refine (ihp hm hp.1 hu).next (fun _ _ h => h) fun m1 v hv h1 => ?_
    have hwithin := walk_within (limit m) p m.nlmsgLen
    rw [hv] at hwithin
    have hle : v ≤ m.nlmsgLen + p.gross := hwithin.le
    obtain ⟨a, ha⟩ := h1.wrote
    have hlen := h1.len
    have hrel := ihq ha.tidy hp.2 (by omega)
    rw [limit_wrote ha, hlen] at hrel
    exact hrel.mono fun m2 w h2 => h1.trans h2
  | call body ih => exact (ih hm hp hu).back

/-- **With room for everything**, everything is written. -/
theorem run_clean (p : Plan) {m : NlMsg} (hm : Tidy m) {u : ℕ} (hp : p.WF u) (hu : m.nlmsgLen ≤ u)
    (hclean : p.Clean (limit m) m.nlmsgLen) : ∃ m', run p m = .ok m' ∧ Wrote m m' p.image := by
  induction p generalizing m u with
  | done => exact ⟨m, rfl, Wrote.nil hm⟩
  | fail => exact hclean.elim
  | crash => exact hclean.elim
  | put p hard =>
    obtain ⟨hroom, hshort⟩ := hclean
    obtain ⟨m', a, hput, hw, -, hfull⟩ := Piece.write_room hm hp hroom
    rw [hfull hshort] at hw
    refine ⟨m', ?_, hw⟩
    rw [run_put, hput, if_neg (lt_irrefl 0)]
  | nest type hard close body ih =>
    obtain ⟨htype, hbody⟩ := hp
    obtain ⟨hroom, hcontent, hlong⟩ := hclean
    obtain ⟨m1, hstart, hw1⟩ := nlaNestStart_room hm type htype (room_iff.2 hroom)
    have hl1 := hw1.len
    rw [nlaHeader_length] at hl1
    rw [← limit_wrote hw1, ← hl1] at hcontent
    obtain ⟨m2, hrun, hw2⟩ := ih hw1.tidy hbody (by omega) hcontent
    obtain ⟨b, hb, -, himage⟩ := nestEnd_wrote hm hw1 hw2
    rw [himage hlong] at hb
    refine ⟨_, ?_, hb⟩
    rw [run_nest_some hstart, hrun]
    rfl
  | seq p q ihp ihq =>
    obtain ⟨hcp, hcq⟩ := hclean
    obtain ⟨m1, hrun1, hw1⟩ := ihp hm hp.1 hu hcp
    have hl1 := hw1.len
    rw [← limit_wrote hw1, ← hl1] at hcq
    have hwithin := walk_within (limit m) p m.nlmsgLen
    have hrel := run_agrees p hm hp.1 hu
    rw [hrun1] at hrel
    cases hwalk : walk (limit m) p m.nlmsgLen with
    | fail =>
      rw [hwalk] at hrel
      cases hrel
    | crash =>
      rw [hwalk] at hrel
      cases hrel
    | left v =>
      rw [hwalk] at hrel
      cases hrel
    | ok v =>
      rw [hwalk] at hrel hwithin
      have hle : v ≤ m.nlmsgLen + p.gross := hwithin.le
      cases hrel with
      | ok hbehind =>
        have hlen := hbehind.len
        obtain ⟨m2, hrun2, hw2⟩ := ihq hw1.tidy hp.2 (by omega) hcq
        refine ⟨m2, ?_, hw1.append hw2⟩
        show (run p m).next (run q) = _
        rw [hrun1]
        exact hrun2
  | call body ih =>
    obtain ⟨m', hrun, hw⟩ := ih hm hp hu hclean
    refine ⟨m', ?_, hw⟩
    show (run body m).back = _
    rw [hrun]
    rfl

/-! ## Plans that leave a function only by failing -/

/-- no nest is closed by way of a label, and there are no functions within -/
def Straight : Plan → Prop
  | nest _ _ close body => close = false ∧ Straight body
  | seq p q => Straight p ∧ Straight q
  | call _ => False
  | _ => True

/-- what is put outside of nests is not too long -/
def ShortTop : Plan → Prop
  | put p _ => p.Short
  | seq p q => ShortTop p ∧ ShortTop q
  | call body => ShortTop body
  | _ => True

theorem nestImage_length {t : ℕ} {a : List UInt8} (hmod : a.length % 4 = 0) :
    (nestImage t a).length = if a = [] then 0 else 4 + a.length := by
  unfold nestImage
  split_ifs
  · rfl
  · have halign : align4 (4 + a.length) = 4 + a.length := align4_of_mod (by omega)
    rw [encLeaves_cons, encLeaves_nil, List.append_nil, encLeaf_length, halign]

theorem image_mod (p : Plan) {u : ℕ} (hp : p.WF u) : p.image.length % 4 = 0 := by
  induction p generalizing u with
  | done => rfl
  | fail => rfl
  | crash => rfl
  | put p hard =>
    have hsize := Piece.image_length p
    show p.image.length % 4 = 0
    cases p with
    | attr l =>
      rw [hsize]
      exact align4_mod _
    | bytes bs => exact hp.2.1
  | nest type hard close body ih =>
    have hmod := ih hp.2
    show (nestImage type body.image).length % 4 = 0
    rw [nestImage_length hmod]
    split_ifs
    · rfl
    · omega
  | seq p q ihp ihq =>
    have hmodp := ihp hp.1
    have hmodq := ihq hp.2
    show (p.image ++ q.image).length % 4 = 0
    rw [List.length_append]
    omega
  | call body ih => exact ih hp

/-- what is in a nest that is not too long is not too long -/
theorem shortTop_of_length (p : Plan) (h : 4 + p.image.length ≤ 65535) : ShortTop p := by
  induction p with
  | done => trivial
  | fail => trivial
  | crash => trivial
  | put p hard =>
    have hsize := Piece.image_length p
    have himage : 4 + p.image.length ≤ 65535 := h
    cases p with
    | attr l =>
      have hge := le_align4 (4 + l.payload.length)
      have hattr : Piece.size (.attr l) = align4 (4 + l.payload.length) := rfl
      show 4 + l.payload.length ≤ 65535
      omega
    | bytes bs => trivial
  | nest => trivial
  | seq p q ihp ihq =>
    have happ : 4 + (p.image ++ q.image).length ≤ 65535 := h
    rw [List.length_append] at happ
    exact ⟨ihp (by omega), ihq (by omega)⟩
  | call body ih => exact ih h

/-- **The length tells.** A plan that ends has written no more than all of it, and all of it only if nothing was too long. -/
theorem walk_full {cap : ℕ} (p : Plan) (hs : p.Straight) {u₀ : ℕ} (hp : p.WF u₀) {u v : ℕ} (h : walk cap p u = .ok v) :
    v ≤ u + p.image.length ∧ (v = u + p.image.length → p.ShortTop → p.Clean cap u) := by
  induction p generalizing u₀ u v with
  | done =>
    cases h
    exact ⟨le_refl u, fun _ _ => trivial⟩
  | fail => cases h
  | crash => cases h
  | put p hard =>
    have hsize := Piece.image_length p
    have himage : (put p hard).image.length = p.size := hsize
    rw [walk] at h
    split_ifs at h with hroom
    cases h
    rw [himage]
    exact ⟨le_refl _, fun _ hshort => ⟨hroom, hshort⟩⟩
  | nest type hard close body ih =>
    obtain ⟨hclose, hsbody⟩ := hs
    have hmod := image_mod body hp.2
    have himage : (nest type hard close body).image.length = if body.image = [] then 0 else 4 + body.image.length :=
      nestImage_length hmod
    have hwithin := walk_within cap body (u + 4)
    rw [walk] at h
    split_ifs at h with hroom
    obtain ⟨w, hv, hbody | ⟨habs, -⟩⟩ := Res.endNest_eq_ok h
    case inr => exact absurd habs (by rw [hclose]; exact Bool.false_ne_true)
    obtain ⟨hle, hall⟩ := ih hsbody hp.2 hbody
    rw [hbody] at hwithin
    have hge : u + 4 ≤ w := hwithin.ge
    rw [himage, hv]
    split_ifs with hnil
    · -- there is nothing to be in the nest
      rw [hnil, List.length_nil] at hle hall
      have hw : w = u + 4 := by omega
      have hgone : closed u w = u := if_pos (Or.inl hw)
      rw [hgone]
      refine ⟨le_refl u, fun _ _ => ⟨hroom, hall hw (shortTop_of_length body ?_), ?_⟩⟩
      · rw [hnil]
        decide
      · rw [hnil]
        decide
    · rcases closed_cases u w with hgone | hkept
      · rw [hgone]
        exact ⟨Nat.le_add_right _ _, fun heq => by omega⟩
      · rw [hkept]
        refine ⟨by omega, fun heq _ => ?_⟩
        have hlong : 4 + body.image.length ≤ 65535 := by
          unfold closed at hkept
          split_ifs at hkept with hdrop
          · omega
          · omega
        exact ⟨hroom, hall (by omega) (shortTop_of_length body hlong), hlong⟩
  | seq p q ihp ihq =>
    rw [walk] at h
    obtain ⟨w, hwalk, hrest⟩ := Res.next_eq_ok h
    obtain ⟨hle, hall⟩ := ihp hs.1 hp.1 hwalk
    obtain ⟨hle', hall'⟩ := ihq hs.2 hp.2 hrest
    have himage : (seq p q).image.length = p.image.length + q.image.length := List.length_append
    rw [himage]
    refine ⟨by omega, fun heq hshort => ⟨hall (by omega) hshort.1, ?_⟩⟩
    have hw : w = u + p.image.length := by omega
    rw [← hw]
    exact hall' (by omega) hshort.2
  | call body ih => exact hs.elim

/-- **When everything is written.** What a straight plan leaves behind is all that is put just if there is room for everything
and nothing is too long. -/
theorem wrote_iff (p : Plan) (hs : p.Straight) (hshort : p.ShortTop) {m m' : NlMsg} (hm : Tidy m) {u : ℕ} (hp : p.WF u)
    (hu : m.nlmsgLen ≤ u) (h : run p m = .ok m') :
    m'.nlmsgLen = m.nlmsgLen + p.image.length ↔ p.Clean (limit m) m.nlmsgLen := by
  constructor
  · intro hlen
    have hrel := run_agrees p hm hp hu
    rw [h] at hrel
    cases hwalk : walk (limit m) p m.nlmsgLen with
    | fail =>
      rw [hwalk] at hrel
      cases hrel
    | crash =>
      rw [hwalk] at hrel
      cases hrel
    | left v =>
      rw [hwalk] at hrel
      cases hrel
    | ok v =>
      rw [hwalk] at hrel
      cases hrel with
      | ok hbehind => exact (walk_full p hs hp hwalk).2 (hbehind.len.symm.trans hlen) hshort
  · intro hclean
    obtain ⟨m1, hrun, hw⟩ := run_clean p hm hp hu hclean
    rw [h] at hrun
    cases hrun
    exact hw.len

/-! ## Functions that do what a plan says -/

/-- the end of a function, and that of a plan -/
inductive Ends : NlMsg × ℤ → Res NlMsg → Prop where
  | fail {m : NlMsg} {e : ℤ} (h : e < 0) : Ends (m, e) .fail
  | ok {m : NlMsg} : Ends (m, 0) (.ok m)

/-- the function does what the plan says -/
def Does (f : NlMsg → NlMsg × ℤ) (p : Plan) : Prop := ∀ m, Ends (f m) (run p m)

theorem does_done : Does (fun msg => (msg, 0)) done := fun _ => .ok

theorem Does.seq {f g : NlMsg → NlMsg × ℤ} {p q : Plan} {code : ℤ} (hcode : code < 0) (hf : Does f p) (hg : Does g q) :
    Does (fun msg => thenPut code (f msg) g) (seq p q) := by
  intro m
  have hends := hf m
  show Ends (thenPut code (f m) g) ((run p m).next (run q))
  generalize f m = r at hends
  generalize run p m = s at hends
  cases hends with
  | fail h =>
    have hfail : ∀ m e, e < 0 → thenPut code (m, e) g = (m, code) := fun m e h => if_pos h
    rw [hfail _ _ h]
    exact .fail hcode
  | ok =>
    rw [thenPut_ok]
    exact hg _

theorem Does.put {code : ℤ} (hcode : code < 0) (l : Leaf) {g : NlMsg → NlMsg × ℤ} {q : Plan} (hg : Does g q) :
    Does (fun msg => thenPut code (nlaPut msg l.type l.payload.length l.payload) g) (Plan.seq (.put (.attr l) true) q) := by
  intro m
  show Ends (thenPut code (Piece.write m (.attr l)) g) ((run (.put (.attr l) true) m).next (run q))
  rw [run_put]
  generalize Piece.write m (.attr l) = r
  unfold thenPut
  by_cases hneg : r.2 < 0
  · rw [if_pos hneg, if_pos hneg]
    exact .fail hcode
  · rw [if_neg hneg, if_neg hneg]
    exact hg r.1

/-- bytes behind the message -/
theorem does_bytes (bs : List UInt8) : Does (fun msg => nlmsgAppend msg bs 4) (.put (.bytes bs) true) := by
  intro m
  show Ends (nlmsgAppend m bs 4) (run (.put (.bytes bs) true) m)
  rw [run_put]
  have hcases : (∃ e < 0, (nlmsgAppend m bs 4).2 = e) ∨ (nlmsgAppend m bs 4).2 = 0 := by
    unfold nlmsgAppend
    split
    · exact Or.inl ⟨-NLE_NOMEM, by decide, rfl⟩
    · exact Or.inr rfl
  show Ends (nlmsgAppend m bs 4) (if (nlmsgAppend m bs 4).2 < 0 then .fail else .ok (nlmsgAppend m bs 4).1)
  generalize nlmsgAppend m bs 4 = r at hcases
  obtain ⟨m', e⟩ := r
  rcases hcases with ⟨e', he, heq⟩ | heq
  · obtain rfl : e = e' := heq
    rw [if_pos he]
    exact .fail he
  · obtain rfl : e = 0 := heq
    rw [if_neg (lt_irrefl 0)]
    exact .ok

/-- attributes in a row -/
theorem does_putAll {code : ℤ} (hcode : code < 0) (ls : List Leaf) : Does (putAll code ls) (puts (ls.map .attr)) := by
  induction ls with
  | nil => exact does_done
  | cons l ls ih => exact Does.put hcode l ih

/-- a nest -/
theorem Does.nest {code : ℤ} (hcode : code < 0) {body : NlMsg → NlMsg × ℤ} {p : Plan} (t : ℕ) (hbody : Does body p) :
    Does (putNestOf code t body) (.nest t true false p) := by
  intro m
  show Ends (inNest code (nlaNestStart m t) _) (inStarted true (nlaNestStart m t) _)
  generalize nlaNestStart m t = r
  obtain ⟨m1, start⟩ := r
  cases start with
  | none => exact .fail hcode
  | some start =>
    have hends := hbody m1
    show Ends (thenPut code (body m1) fun msg => ((nlaNestEnd msg start).1, 0))
      ((run p m1).endNest false fun msg => (nlaNestEnd msg start).1)
    generalize body m1 = r at hends
    generalize run p m1 = s at hends
    cases hends with
    | fail h =>
      have hfail : ∀ (g : NlMsg → NlMsg × ℤ) m e, e < 0 → thenPut code (m, e) g = (m, code) := fun g m e h => if_pos h
      rw [hfail _ _ _ h]
      exact .fail hcode
    | ok =>
      rw [thenPut_ok]
      exact .ok

/-! ## Attributes in a row -/

omit [HostOrder] in
theorem puts_straight (ps : List Piece) : Straight (puts ps) := by
  induction ps with
  | nil => trivial
  | cons p ps ih => exact ⟨trivial, ih⟩

theorem puts_image (ls : List Leaf) : image (puts (ls.map .attr)) = encLeaves ls := by
  induction ls with
  | nil => rfl
  | cons l ls ih =>
    have hsplit := encLeaves_append [l] ls
    show encLeaves [l] ++ image (puts (ls.map .attr)) = _
    rw [ih, ← hsplit]
    rfl

omit [HostOrder] in
theorem puts_wf {ls : List Leaf} (h : ∀ l ∈ ls, l.type < 65536 ∧ l.payload.length ≤ 2147483640) (u : ℕ) :
    WF (puts (ls.map .attr)) u := by
  induction ls generalizing u with
  | nil => trivial
  | cons l ls ih =>
    obtain ⟨hl, hrest⟩ := List.forall_mem_cons.1 h
    exact ⟨hl, ih hrest _⟩

omit [HostOrder] in
theorem puts_shortTop {ls : List Leaf} (h : ∀ l ∈ ls, l.WF) : ShortTop (puts (ls.map .attr)) := by
  induction ls with
  | nil => trivial
  | cons l ls ih =>
    obtain ⟨hl, hrest⟩ := List.forall_mem_cons.1 h
    exact ⟨hl.len, ih hrest⟩

end

end Plan

end Libnl.Plans
