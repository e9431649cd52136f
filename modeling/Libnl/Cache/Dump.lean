/-
Dumps (`lib/cache.c`): asking the kernel for all objects, and what is done with the answers.

`nl_cache_resync` and `nl_cache_refill` have the same loop: a request is sent, the messages that come are parsed and handed
to a function, and an answer that was interrupted is followed by another request. What comes from the socket is data
here: a list of answers (`Pass`), of which the loop takes as many as it asks for. With `NL_CACHE_AF_ITER` there is one
round for every group of the cache; each round restarts until an answer is complete.

`recvmsgs` reads all messages of an answer, and reports at the end that it was interrupted.
-/
import Mathlib.Tactic
import Libnl.Cache.Contents

namespace Libnl.Cache

open Msg Object KeyedList

variable {α : Type}

/-! ## Answers -/

/-- an answer to a dump request -/
structure Pass (α : Type) where
  /-- what sending the request returns -/
  request : ℤ
  /-- the objects, each with whether its message carries `NLM_F_DUMP_INTR` -/
  msgs : List (ObjVal α × Bool)
  /-- whether the message that ends the answer carries it -/
  intr : Bool
  /-- what `recvmsgs` returns if the answer is not interrupted and no callback ends it -/
  err : ℤ

def NL_SKIP : ℤ := 1
def NL_STOP : ℤ := 2

/-- what is left to do in `recvmsgs` and `nl_recvmsgs` after the last message -/
def recvmsgsResult (interrupted : Bool) (err : ℤ) : ℤ :=
  if interrupted then -NLE_DUMP_INTR else if err > 0 then 0 else err

def updateMsgParser (r : Store α × ℤ) : Store α × ℤ := if r.2 = -NLE_EXIST then (r.1, NL_SKIP) else r

/-- `__cache_pickup`: messages are parsed until a parser says stop or fails -/
def cachePickup (parser : Store α → ObjVal α → Store α × ℤ) (p : Pass α) (w : Store α) (interrupted : Bool) :
    List (ObjVal α × Bool) → Store α × ℤ
  | [] => (w, recvmsgsResult (interrupted || p.intr) p.err)
  | (v, intr) :: msgs =>
    let r := updateMsgParser (parser w v)
    if r.2 = 0 ∨ r.2 = NL_SKIP then cachePickup parser p r.1 (interrupted || intr) msgs
    else if r.2 = NL_STOP then (r.1, recvmsgsResult (interrupted || intr) 0)
    else (r.1, recvmsgsResult (interrupted || intr) r.2)

/-! ## The loop -/

structure AfGroup where
  agFamily : ℕ
  agGroup : ℕ
deriving DecidableEq, Repr

/-- what dumps read of a cache and its operations -/
structure DumpOps where
  coProtocol : ℕ
  /-- `co_request_update` is not `NULL` -/
  coRequestUpdate : Bool
  /-- up to the terminating entry, whose group is zero -/
  coGroups : Option (List AfGroup)
  /-- `NL_CACHE_AF_ITER` -/
  afIter : Bool

def nlCacheRequestFullDump (sProto : ℕ) (d : DumpOps) (p : Pass α) : ℤ :=
  if sProto ≠ d.coProtocol then -NLE_PROTO_MISMATCH
  else if !d.coRequestUpdate then -NLE_OPNOTSUPP
  else p.request

/-- the body of the loop: answers are taken until one is not interrupted; `none` if none is left to wait for -/
def dumpRound (parser : Store α → ObjVal α → Store α × ℤ) (sProto : ℕ) (d : DumpOps) (w : Store α) :
    List (Pass α) → Option (Store α × ℤ × List (Pass α))
  | [] => none
  | p :: ps =>
    if nlCacheRequestFullDump sProto d p < 0 then some (w, nlCacheRequestFullDump sProto d p, ps)
    else
      let r := cachePickup parser p w false p.msgs
      if r.2 = -NLE_DUMP_INTR then dumpRound parser sProto d r.1 ps
      else some (r.1, r.2, ps)

/-- groups that the loop goes on for, after the first -/
def moreGroups : List AfGroup → ℕ
  | [] => 0
  | g :: gs => if g.agGroup ≠ 0 then 1 + moreGroups gs else 0

/-- how often the loop runs, if nothing fails -/
def roundCount (d : DumpOps) : ℕ :=
  match d.coGroups with
  | some (_ :: gs) => if d.afIter then 1 + moreGroups gs else 1
  | _ => 1

def dumpRounds (parser : Store α → ObjVal α → Store α × ℤ) (sProto : ℕ) (d : DumpOps) :
    ℕ → Store α → List (Pass α) → Option (Store α × ℤ)
  | 0, w, _ => some (w, 0)
  | n + 1, w, ps =>
    match dumpRound parser sProto d w ps with
    | none => none
    | some (w', err, ps') => if err < 0 then some (w', err) else dumpRounds parser sProto d n w' ps'

variable (ops : ℕ → ObjectOps α)

/-- the end of `nl_cache_resync` for one object of the list -/
def sweepObject (cb : ChangeCb) (w : Store α) (o : ObjId) : Store α :=
  if (w.heap o).marked then
    let w := nlObjectGet w o
    let w := nlCacheRemove ops w o
    let w := callback w cb (.v1 (w.val o) .del) (.v1 (w.val o) .del)
    nlObjectPut w o
  else w

/-- `change_cb`, which may be `NULL`, is of the first version -/
def changeCb (change : Bool) : ChangeCb := if change then .v1 else .none

def nlCacheResync (sProto : ℕ) (d : DumpOps) (w : Store α) (c : CacheId) (change : Bool) (ps : List (Pass α)) :
    Option (Store α × ℤ) :=
  if sProto ≠ d.coProtocol then some (w, -NLE_PROTO_MISMATCH)
  else
    let w := nlCacheMarkAll w c
    match dumpRounds (fun w v => notify ops w c (changeCb change) v) sProto d (roundCount d) w ps with
    | none => none
    | some (w, err) =>
      if err < 0 then some (w, err)
      else some ((w.caches c).cItems.foldl (sweepObject ops (changeCb change)) w, 0)

/-- `pickup_cb` at the end of a message parser -/
def pickup (c : CacheId) (w : Store α) (v : ObjVal α) : Store α × ℤ :=
  msgParser w v fun w o => nlCacheAdd ops w c o ⟨true, true⟩

def nlCacheRefill (sProto : ℕ) (d : DumpOps) (w : Store α) (c : CacheId) (ps : List (Pass α)) : Option (Store α × ℤ) :=
  if sProto ≠ d.coProtocol then some (w, -NLE_PROTO_MISMATCH)
  else dumpRounds (pickup ops c) sProto d (roundCount d) (nlCacheClear ops w c) ps

/-! ## Answers that are as they should be -/

namespace Pass

def objs (p : Pass α) : List (ObjVal α) := p.msgs.map Prod.fst

/-- some message of the answer carries `NLM_F_DUMP_INTR` -/
def interrupted (p : Pass α) : Bool := p.msgs.any Prod.snd || p.intr

/-- the answer is interrupted, so that `__cache_pickup` ends with `-NLE_DUMP_INTR` -/
def Interrupted (p : Pass α) : Prop := 0 ≤ p.request ∧ p.interrupted = true

/-- the answer is complete -/
def Complete (p : Pass α) : Prop := 0 ≤ p.request ∧ p.interrupted = false ∧ 0 ≤ p.err

instance (p : Pass α) : Decidable p.Interrupted := inferInstanceAs (Decidable (_ ∧ _))

instance (p : Pass α) : Decidable p.Complete := inferInstanceAs (Decidable (_ ∧ _ ∧ _))

end Pass

/-- the answers of a round of the loop: any number that are interrupted, and a complete one -/
structure Round (α : Type) where
  retried : List (Pass α)
  last : Pass α
  interrupted : ∀ p ∈ retried, p.Interrupted
  complete : last.Complete

namespace Round

def passes (r : Round α) : List (Pass α) := r.retried ++ [r.last]

end Round

def answers (rounds : List (Round α)) : List (Pass α) := rounds.flatMap Round.passes

/-- everything that comes in a sequence of answers -/
def received (ps : List (Pass α)) : List (ObjVal α) := ps.flatMap Pass.objs

/-- what comes in the complete answers -/
def completed (rounds : List (Round α)) : List (ObjVal α) := rounds.flatMap fun r => r.last.objs

/-- what comes in the interrupted ones -/
def aborted (rounds : List (Round α)) : List (ObjVal α) := rounds.flatMap fun r => received r.retried

theorem mem_received {rounds : List (Round α)} {v : ObjVal α} :
    v ∈ received (answers rounds) ↔ v ∈ aborted rounds ∨ v ∈ completed rounds := by
  unfold received answers aborted completed received Round.passes
  simp only [List.mem_flatMap, List.mem_append, List.mem_singleton]
  constructor
  · rintro ⟨p, ⟨r, hr, hp | rfl⟩, hv⟩
    · exact Or.inl ⟨r, hr, p, hp, hv⟩
    · exact Or.inr ⟨r, hr, hv⟩
  · rintro (⟨r, hr, p, hp, hv⟩ | ⟨r, hr, hv⟩)
    · exact ⟨p, ⟨r, hr, Or.inl hp⟩, hv⟩
    · exact ⟨r.last, ⟨r, hr, Or.inr rfl⟩, hv⟩

theorem received_of_uninterrupted {rounds : List (Round α)} (h : ∀ r ∈ rounds, r.retried = []) :
    received (answers rounds) = completed rounds := by
  induction rounds with
  | nil => rfl
  | cons r rounds ih =>
    have ih := ih fun r' hr' => h r' (List.mem_cons_of_mem r hr')
    unfold received answers completed Round.passes at *
    simp [h r List.mem_cons_self, ih]

/-- a socket and a cache that can be dumped, and answers for all rounds -/
structure Answered (sProto : ℕ) (d : DumpOps) (rounds : List (Round α)) : Prop where
  proto : sProto = d.coProtocol
  request : d.coRequestUpdate = true
  rounds : rounds.length = roundCount d

/-! ## The loop takes all answers -/

section

variable {parser : Store α → ObjVal α → Store α × ℤ} {I : Store α → Prop} {V : ObjVal α → Prop}

/-- the store after a parser has got a list of objects -/
def parseAll (parser : Store α → ObjVal α → Store α × ℤ) (w : Store α) (vs : List (ObjVal α)) : Store α :=
  vs.foldl (fun w v => (parser w v).1) w

/-- on objects in `V` the parser keeps `I`, and does not stop the reading -/
def Swallows (parser : Store α → ObjVal α → Store α × ℤ) (I : Store α → Prop) (V : ObjVal α → Prop) : Prop :=
  ∀ w v, I w → V v → I (parser w v).1 ∧ ((parser w v).2 = 0 ∨ (parser w v).2 = -NLE_EXIST)

theorem Swallows.parseAll (hp : Swallows parser I V) {w : Store α} (hw : I w) {vs : List (ObjVal α)}
    (hvs : ∀ v ∈ vs, V v) : I (parseAll parser w vs) := by
  induction vs generalizing w with
  | nil => exact hw
  | cons v vs ih =>
    exact ih (hp w v hw (hvs v List.mem_cons_self)).1 fun v' hv' => hvs v' (List.mem_cons_of_mem v hv')

theorem parseAll_append (w : Store α) (vs us : List (ObjVal α)) :
    Cache.parseAll parser w (vs ++ us) = Cache.parseAll parser (Cache.parseAll parser w vs) us := List.foldl_append

theorem Swallows.cachePickup (hp : Swallows parser I V) (p : Pass α) {w : Store α} (hw : I w) (interrupted : Bool)
    {msgs : List (ObjVal α × Bool)} (hmsgs : ∀ v ∈ msgs.map Prod.fst, V v) :
    cachePickup parser p w interrupted msgs = (Cache.parseAll parser w (msgs.map Prod.fst),
      recvmsgsResult (interrupted || (msgs.any Prod.snd || p.intr)) p.err) := by
  induction msgs generalizing w interrupted with
  | nil => rfl
  | cons m msgs ih =>
    obtain ⟨hI, hret⟩ := hp w m.1 hw (hmsgs m.1 List.mem_cons_self)
    have hstep := ih hI (interrupted || m.2) fun v hv => hmsgs v (List.mem_cons_of_mem m.1 hv)
    have hgo : (updateMsgParser (parser w m.1)).1 = (parser w m.1).1 ∧
        ((updateMsgParser (parser w m.1)).2 = 0 ∨ (updateMsgParser (parser w m.1)).2 = NL_SKIP) := by
      unfold updateMsgParser
      rcases hret with hret | hret
      · rw [hret, if_neg (by decide)]
        exact ⟨rfl, Or.inl hret⟩
      · rw [if_pos hret]
        exact ⟨rfl, Or.inr rfl⟩
    unfold Cache.cachePickup
    dsimp only
    rw [if_pos hgo.2, hgo.1, hstep]
    simp [Cache.parseAll, Bool.or_assoc]

variable {sProto : ℕ} {d : DumpOps}

theorem request_eq (hproto : sProto = d.coProtocol) (hreq : d.coRequestUpdate = true) (p : Pass α) :
    nlCacheRequestFullDump sProto d p = p.request := by
  unfold nlCacheRequestFullDump
  simp [hproto, hreq]

theorem received_cons (p : Pass α) (ps : List (Pass α)) : received (p :: ps) = p.objs ++ received ps := rfl

theorem Swallows.dumpRound (hp : Swallows parser I V) (hproto : sProto = d.coProtocol) (hreq : d.coRequestUpdate = true)
    {last : Pass α} (hlast : last.Complete) {ps : List (Pass α)} (hps : ∀ p ∈ ps, p.Interrupted)
    (hV : ∀ v ∈ received (ps ++ [last]), V v) {w : Store α} (hw : I w) (rest : List (Pass α)) :
    dumpRound parser sProto d w (ps ++ last :: rest) =
      some (Cache.parseAll parser w (received (ps ++ [last])), 0, rest) := by
  induction ps generalizing w with
  | nil =>
    have hobjs : ∀ v ∈ last.msgs.map Prod.fst, V v := by simpa [received, Pass.objs] using hV
    have hintr : (last.msgs.any Prod.snd || last.intr) = false := hlast.2.1
    have herr : recvmsgsResult false last.err = 0 := by
      have hpos := hlast.2.2
      unfold recvmsgsResult
      rw [if_neg (by decide)]
      by_cases h : last.err > 0
      · rw [if_pos h]
      · rw [if_neg h]
        omega
    rw [List.nil_append, Cache.dumpRound, request_eq hproto hreq, if_neg (not_lt.2 hlast.1),
      hp.cachePickup last hw false hobjs, hintr, Bool.or_false, herr,
      if_neg (by decide : ¬ (0 : ℤ) = -NLE_DUMP_INTR)]
    simp [received, Pass.objs]
  | cons p ps ih =>
    have hp1 := hps p List.mem_cons_self
    rw [List.cons_append, received_cons] at hV
    have hobjs : ∀ v ∈ p.msgs.map Prod.fst, V v := fun v hv => hV v (List.mem_append_left _ hv)
    have hrest : ∀ v ∈ received (ps ++ [last]), V v := fun v hv => hV v (List.mem_append_right _ hv)
    have hintr : (p.msgs.any Prod.snd || p.intr) = true := hp1.2
    rw [List.cons_append, Cache.dumpRound, request_eq hproto hreq, if_neg (not_lt.2 hp1.1),
      hp.cachePickup p hw false hobjs, hintr, Bool.or_true]
    rw [if_pos (by rfl), ih (fun q hq => hps q (List.mem_cons_of_mem p hq)) hrest (hp.parseAll hw hobjs)]
    rw [List.cons_append, received_cons, parseAll_append]
    rfl

/-- **The loop takes all answers** of all rounds, and the parser gets everything in them. -/
theorem Swallows.dumpRounds (hp : Swallows parser I V) (hproto : sProto = d.coProtocol)
    (hreq : d.coRequestUpdate = true) {rounds : List (Round α)}
    (hV : ∀ v ∈ received (answers rounds), V v) {w : Store α} (hw : I w) :
    dumpRounds parser sProto d rounds.length w (answers rounds) =
      some (Cache.parseAll parser w (received (answers rounds)), 0) := by
  induction rounds generalizing w with
  | nil => rfl
  | cons r rounds ih =>
    have hsplit : received (answers (r :: rounds)) =
        received (r.retried ++ [r.last]) ++ received (answers rounds) := by
      simp [received, answers, Round.passes]
    have hr : ∀ v ∈ received (r.retried ++ [r.last]), V v := fun v hv => hV v (by
      rw [hsplit]
      exact List.mem_append_left _ hv)
    have hrest : ∀ v ∈ received (answers rounds), V v := fun v hv => hV v (by
      rw [hsplit]
      exact List.mem_append_right _ hv)
    have hpasses : answers (r :: rounds) = r.retried ++ r.last :: answers rounds := by
      simp [answers, Round.passes]
    rw [hsplit, parseAll_append, ← ih hrest (hp.parseAll hw hr), hpasses, List.length_cons, Cache.dumpRounds,
      hp.dumpRound hproto hreq r.complete r.interrupted hr hw]
    rfl

end

end Libnl.Cache
