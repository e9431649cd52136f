/-
Notifications: a cache that follows a sequence of messages.

A cache is seen as a map from identities to objects (`viewOf`). For a type that is not updated in place, messages do to
the map what they say: a new object is set, a deleted one removed (`follow`); and the callbacks tell (`expected`) what
was not in the map before, what was in it and differs, and what was removed.

Somebody who keeps a map of his own and applies the callbacks (`applyEvent`) has the same identities in it as the cache.
The objects need not be the same: a message whose object does not differ from the old one replaces it without a callback.
So the mirror lags behind by a number of such steps, each between objects that `oo_compare` does not tell apart.

- `notifications_tracked`: all of this for every sequence of messages, and both versions of the callback.
- `mirror_drifts`: the mirror's object and that of the cache can differ, if differing is not transitive.
-/
import Mathlib.Tactic
import Libnl.Cache.Contents

namespace Libnl.Cache

open Msg Object KeyedList

variable {α : Type}

/-! ## Maps from identities -/

abbrev View (α : Type) := ObjVal α → Option (ObjVal α)

section

variable (ops : ℕ → ObjectOps α)

def viewOf (es : List (Entry α)) : View α := fun k => (entryOf ops es k).map Entry.val

def View.set (m : View α) (v : ObjVal α) : View α := fun k => if nlObjectIdentical ops v k then some v else m k

def View.del (m : View α) (v : ObjVal α) : View α := fun k => if nlObjectIdentical ops v k then none else m k

/-- what a message says -/
def follow (act : Act) (m : View α) (v : ObjVal α) : View α :=
  if act = .new then m.set ops v else m.del ops v

/-- the callbacks for a message -/
def expected (cb : ChangeCb) (act : Act) (m : View α) (v : ObjVal α) : List (Event α) :=
  match m v with
  | none => if act = .new then calls cb (.v1 v .new) (.v2 none (some v) 0 .new) else []
  | some old =>
    if act = .del then calls cb (.v1 old .del) (.v2 (some old) none 0 .del)
    else if nlObjectDiff ops old v ≠ 0 then
      calls cb (.v1 v .change) (.v2 (some old) (some v) (nlObjectDiff64 ops old v) .change)
    else []

def followAll (cops : CacheOps) (m : View α) (vs : List (ObjVal α)) : View α :=
  vs.foldl (fun m v => follow ops (actOf cops v) m v) m

def expectedAll (cops : CacheOps) (cb : ChangeCb) (m : View α) : List (ObjVal α) → List (Event α)
  | [] => []
  | v :: vs => expected ops cb (actOf cops v) m v ++ expectedAll cops cb (follow ops (actOf cops v) m v) vs

/-- what a callback tells somebody who keeps a map -/
def applyEvent (m : View α) : Event α → View α
  | .v1 obj act => if act = .del then m.del ops obj else m.set ops obj
  | .v2 old new _ act => if act = .del then old.elim m (m.del ops) else new.elim m (m.set ops)

def Event.act : Event α → Act
  | .v1 _ act => act
  | .v2 _ _ _ act => act

end

/-! ## One message -/

section

variable {ops : ℕ → ObjectOps α} {good : ObjVal α → Prop} {t : ℕ} {es : List (Entry α)} {v : ObjVal α}

theorem follow_apply {act : Act} (hact : act = .new ∨ act = .del) (m : View α) (v k : ObjVal α) :
    follow ops act m v k = if nlObjectIdentical ops v k then (if act = .new then some v else none) else m k := by
  unfold follow
  rcases hact with rfl | rfl
  · rfl
  · rfl

/-- messages do the same to maps that are the same on members -/
theorem follow_congr (act : Act) (v : ObjVal α) {m m' : View α} (h : ∀ k, Member good t k → m k = m' k) {k : ObjVal α}
    (hk : Member good t k) : follow ops act m v k = follow ops act m' v k := by
  unfold follow
  by_cases hact : act = .new
  · rw [if_pos hact, if_pos hact, View.set, View.set, h k hk]
  · rw [if_neg hact, if_neg hact, View.del, View.del, h k hk]

theorem expected_eq (hupd : (ops t).ooUpdate = none) (hs : Sound ops good t es) (cb : ChangeCb) (act : Act) :
    expected ops cb act (viewOf ops es) v = includeEvents ops cb act es v := by
  unfold expected includeEvents viewOf
  cases hlook : entryOf ops es v with
  | none => rfl
  | some old =>
    have hold := hs.member old (look_some hlook).1
    simp only [Option.map_some, nlObjectUpdate_none hupd hold.type, ne_eq, diff_eq_zero_iff]

variable (hl : LawfulEquiv ops good t) (hupd : (ops t).ooUpdate = none) (hs : Sound ops good t es)
  (hv : Member good t v)

include hl hs hv in
theorem view_congr {k : ObjVal α} (hk : Member good t k) (h : nlObjectIdentical ops v k = true) :
    viewOf ops es k = viewOf ops es v := by
  unfold viewOf entryOf
  rw [look_congr (equivOn hl) hs.member hv hk h]

include hl hupd hs hv

theorem view_include {act : Act} (hact : act = .new ∨ act = .del) {k : ObjVal α} (hk : Member good t k) :
    viewOf ops (includeEntries ops act es v) k = follow ops act (viewOf ops es) v k := by
  rw [follow_apply hact]
  unfold viewOf
  rw [look_include hl (updateKeeps_of_none hupd) hs hv act hk]
  by_cases hvk : nlObjectIdentical ops v k = true
  · rw [if_pos hvk, if_pos hvk]
    unfold includeEntry
    cases hlook : entryOf ops es k with
    | none =>
      dsimp only
      split_ifs
      · rfl
      · rfl
    | some old =>
      have hold := hs.member old (look_some hlook).1
      dsimp only
      rw [nlObjectUpdate_none hupd hold.type]
      rcases hact with rfl | rfl
      · rfl
      · rfl
  · rw [if_neg hvk, if_neg hvk]

end

/-! ## A mirror -/

/-- `oo_compare` does not tell the objects apart -/
def NoDiff (ops : ℕ → ObjectOps α) (a b : ObjVal α) : Prop := nlObjectDiff ops a b = 0

/-- the two maps have the same identities, and their objects are related -/
def Mirrors (good : ObjVal α → Prop) (t : ℕ) (R : ObjVal α → ObjVal α → Prop) (m m' : View α) : Prop :=
  ∀ k, Member good t k → Option.Rel (fun a b => Member good t a ∧ Member good t b ∧ R a b) (m k) (m' k)

section

variable {ops : ℕ → ObjectOps α} {good : ObjVal α → Prop} {t : ℕ} {es : List (Entry α)} {v : ObjVal α}
  {R : ObjVal α → ObjVal α → Prop} {cb : ChangeCb} {m : View α}

theorem applied_set (hcb : cb ≠ .none) {act : Act} (hact : act ≠ .del) (old : Option (ObjVal α)) (d : BitVec 64) :
    (calls cb (.v1 v act) (.v2 old (some v) d act)).foldl (applyEvent ops) m = m.set ops v := by
  cases cb with
  | none => exact absurd rfl hcb
  | v1 => simp [calls, applyEvent, hact]
  | v2 => simp [calls, applyEvent, hact]

theorem applied_del (hcb : cb ≠ .none) :
    (calls cb (.v1 v .del) (.v2 (some v) none 0 .del)).foldl (applyEvent ops) m = m.del ops v := by
  cases cb with
  | none => exact absurd rfl hcb
  | v1 => rfl
  | v2 => rfl

/-- setting the same object in both -/
theorem Mirrors.set {m' m'' : View α} (hm : Mirrors good t R m m') (hv : Member good t v) (hrefl : R v v)
    (hnew : ∀ k, Member good t k → m'' k = if nlObjectIdentical ops v k then some v else m' k) :
    Mirrors good t R (m.set ops v) m'' := by
  intro k hk
  rw [hnew k hk]
  unfold View.set
  split_ifs with hvk
  · exact Option.Rel.some ⟨hv, hv, hrefl⟩
  · exact hm k hk

variable (hl : LawfulEquiv ops good t) (hupd : (ops t).ooUpdate = none)
  (hrefl : ∀ a, Member good t a → R a a)
  (hstep : ∀ a b d, Member good t a → Member good t b → Member good t d → R a b → NoDiff ops b d → R a d)

include hl hupd hrefl hstep

/-- **One message, mirrored.** The callbacks keep the mirror up to steps between objects that do not differ. -/
theorem Mirrors.notified (hs : Sound ops good t es) (hv : Member good t v) (hcb : cb ≠ .none) {act : Act}
    (hact : act = .new ∨ act = .del) (hm : Mirrors good t R m (viewOf ops es)) :
    Mirrors good t R ((includeEvents ops cb act es v).foldl (applyEvent ops) m)
      (viewOf ops (includeEntries ops act es v)) := by
  have hview : ∀ k, Member good t k → viewOf ops (includeEntries ops act es v) k =
      if nlObjectIdentical ops v k then (if act = .new then some v else none) else viewOf ops es k := fun k hk => by
    rw [view_include hl hupd hs hv hact hk, follow_apply hact]
  have hsame : ∀ k, Member good t k → nlObjectIdentical ops v k = true → viewOf ops es k = viewOf ops es v :=
    fun k hk h => view_congr hl hs hv hk h
  rw [← expected_eq hupd hs]
  unfold expected
  cases hold : viewOf ops es v with
  | none =>
    rcases hact with rfl | rfl
    · dsimp only
      rw [if_pos rfl, applied_set hcb (by decide)]
      exact hm.set hv (hrefl v hv) hview
    · -- nothing there to remove, and nothing in the mirror either
      dsimp only
      rw [if_neg (by decide)]
      intro k hk
      by_cases hvk : nlObjectIdentical ops v k = true
      · have hmk := hm k hk
        rw [hsame k hk hvk, hold] at hmk
        rw [hview k hk, if_pos hvk, if_neg (by decide)]
        exact hmk
      · rw [hview k hk, if_neg hvk]
        exact hm k hk
  | some old =>
    obtain ⟨e, hlook, rfl⟩ := Option.map_eq_some_iff.1 hold
    obtain ⟨hmem, hid⟩ := look_some hlook
    have hem := hs.member e hmem
    rcases hact with rfl | rfl
    · dsimp only
      rw [if_neg (by decide)]
      by_cases hdiff : nlObjectDiff ops e.val v ≠ 0
      · rw [if_pos hdiff, applied_set hcb (by decide)]
        exact hm.set hv (hrefl v hv) hview
      · -- no callback: the mirror keeps what it has, one more step behind
        rw [if_neg hdiff]
        rw [not_not] at hdiff
        intro k hk
        by_cases hvk : nlObjectIdentical ops v k = true
        · have hmk := hm k hk
          rw [hsame k hk hvk, hold] at hmk
          rw [hview k hk, if_pos hvk, if_pos rfl, List.foldl_nil]
          generalize m k = mk at hmk
          cases hmk with
          | some hab => exact Option.Rel.some ⟨hab.1, hv, hstep _ _ _ hab.1 hab.2.1 hv hab.2.2 hdiff⟩
        · rw [hview k hk, if_neg hvk]
          exact hm k hk
    · dsimp only
      rw [if_pos rfl, applied_del hcb]
      intro k hk
      have hkk : nlObjectIdentical ops e.val k = nlObjectIdentical ops v k := by
        have he := equivOn hl
        rw [he.comm hem hk, he.congr hem hv hk hid, he.comm hk hv]
      rw [hview k hk, View.del, hkk]
      by_cases hvk : nlObjectIdentical ops v k = true
      · rw [if_pos hvk, if_pos hvk, if_neg (by decide)]
        exact Option.Rel.none
      · rw [if_neg hvk, if_neg hvk]
        exact hm k hk

end

/-! ## A sequence of messages -/

section

variable {ops : ℕ → ObjectOps α} {good : ObjVal α → Prop} {t : ℕ} {cops : CacheOps} {es : List (Entry α)}
  (hl : LawfulEquiv ops good t) (hupd : (ops t).ooUpdate = none)

/-- maps that are the same on members stay so, and the callbacks are the same -/
theorem followAll_congr (ops : ℕ → ObjectOps α) (cops : CacheOps) {m m' : View α} (h : ∀ k, Member good t k → m k = m' k) {vs : List (ObjVal α)}
    (hvs : ∀ v ∈ vs, Member good t v) (cb : ChangeCb) :
    (∀ k, Member good t k → followAll ops cops m vs k = followAll ops cops m' vs k) ∧
      expectedAll ops cops cb m vs = expectedAll ops cops cb m' vs := by
  induction vs generalizing m m' with
  | nil => exact ⟨h, rfl⟩
  | cons v vs ih =>
    obtain ⟨hf, he⟩ := ih (fun k hk => follow_congr (actOf cops v) v h hk)
      (fun v' hv' => hvs v' (List.mem_cons_of_mem v hv'))
    refine ⟨hf, ?_⟩
    unfold expectedAll expected
    rw [he, h v (hvs v List.mem_cons_self)]

/-- both versions of the callback are called for the same reasons -/
theorem acts_eq (es : List (Entry α)) (vs : List (ObjVal α)) :
    (includeAllEvents ops cops .v1 es vs).map Event.act = (includeAllEvents ops cops .v2 es vs).map Event.act := by
  induction vs generalizing es with
  | nil => rfl
  | cons v vs ih =>
    unfold includeAllEvents
    rw [List.map_append, List.map_append, ih]
    congr 1
    unfold includeEvents
    split
    · split_ifs
      · rfl
      · rfl
    · split
      · rfl
      · split_ifs
        · rfl
        · rfl
        · rfl

include hl hupd

/-- **The cache follows**: contents, map and callbacks after any sequence of messages. -/
theorem Sound.followed (hs : Sound ops good t es) (cops : CacheOps) (cb : ChangeCb) {vs : List (ObjVal α)}
    (hvs : ∀ v ∈ vs, Member good t v ∧ Known cops v) :
    Sound ops good t (includeAll ops cops es vs) ∧
      (∀ k, Member good t k → viewOf ops (includeAll ops cops es vs) k = followAll ops cops (viewOf ops es) vs k) ∧
      includeAllEvents ops cops cb es vs = expectedAll ops cops cb (viewOf ops es) vs := by
  induction vs generalizing es with
  | nil => exact ⟨hs, fun _ _ => rfl, rfl⟩
  | cons v vs ih =>
    obtain ⟨hv, hact⟩ := hvs v List.mem_cons_self
    have hrest : ∀ v' ∈ vs, Member good t v' ∧ Known cops v' := fun v' hv' => hvs v' (List.mem_cons_of_mem v hv')
    obtain ⟨hs', hview, hev⟩ := ih (Sound.included hl (updateKeeps_of_none hupd) hs hv (actOf cops v)) hrest
    obtain ⟨hcongr, hecongr⟩ := followAll_congr ops cops
      (fun k hk => view_include hl hupd hs hv hact hk) (fun v' hv' => (hrest v' hv').1) cb
    refine ⟨hs', fun k hk => (hview k hk).trans (hcongr k hk), ?_⟩
    unfold includeAllEvents expectedAll
    rw [hev, hecongr, expected_eq hupd hs]

/-- **The mirror follows.** -/
theorem Mirrors.followed {R : ObjVal α → ObjVal α → Prop} (hrefl : ∀ a, Member good t a → R a a)
    (hstep : ∀ a b d, Member good t a → Member good t b → Member good t d → R a b → NoDiff ops b d → R a d)
    (hs : Sound ops good t es) {cb : ChangeCb} (hcb : cb ≠ .none) {vs : List (ObjVal α)}
    (hvs : ∀ v ∈ vs, Member good t v ∧ Known cops v) {m : View α} (hm : Mirrors good t R m (viewOf ops es)) :
    Mirrors good t R ((includeAllEvents ops cops cb es vs).foldl (applyEvent ops) m)
      (viewOf ops (includeAll ops cops es vs)) := by
  induction vs generalizing es m with
  | nil => exact hm
  | cons v vs ih =>
    obtain ⟨hv, hact⟩ := hvs v List.mem_cons_self
    unfold includeAllEvents
    rw [List.foldl_append]
    exact ih (Sound.included hl (updateKeeps_of_none hupd) hs hv (actOf cops v)) (fun v' hv' => hvs v' (List.mem_cons_of_mem v hv'))
      (hm.notified hl hupd hrefl hstep hs hv hcb hact)

end

section

variable {ops : ℕ → ObjectOps α} {good : ObjVal α → Prop} {t : ℕ} {es : List (Entry α)}

theorem Sound.mirrors_self {R : ObjVal α → ObjVal α → Prop} (hs : Sound ops good t es)
    (hrefl : ∀ a, Member good t a → R a a) : Mirrors good t R (viewOf ops es) (viewOf ops es) := by
  intro k _
  unfold viewOf
  cases hlook : entryOf ops es k with
  | none => exact Option.Rel.none
  | some e =>
    have he := hs.member e (look_some hlook).1
    exact Option.Rel.some ⟨he, he, hrefl _ he⟩

end

/-- **Notification tracking.** For a type without `oo_update` whose identity is an equivalence that the key respects, and
every sequence of messages of members of its class: the cache is the fold of the messages, the callbacks are the expected
ones, and a mirror that applies them has the same identities, with objects that are a chain of undiffering objects away;
if differing is reflexive and transitive, objects that do not differ. Both versions of the callback see the same cache
and the same actions. -/
theorem notifications_tracked {ops : ℕ → ObjectOps α} {good : ObjVal α → Prop} {w : Store α} {held : ObjId → ℕ}
    {c : CacheId} {t : ℕ} (h : Inv ops good w held) (ht : (w.caches c).cOps.coObjOps = t)
    (hl : LawfulEquiv ops good t) (hupd : (ops t).ooUpdate = none) (hs : Sound ops good t (contents w c))
    (vs : List (ObjVal α)) (hvs : ∀ v ∈ vs, Member good t v ∧ Known (w.caches c).cOps v) :
    (∀ cb, Sound ops good t (contents (notifyAll ops w c cb vs) c) ∧
      (∀ k, Member good t k → viewOf ops (contents (notifyAll ops w c cb vs) c) k =
        followAll ops (w.caches c).cOps (viewOf ops (contents w c)) vs k) ∧
      (notifyAll ops w c cb vs).log = w.log ++ expectedAll ops (w.caches c).cOps cb (viewOf ops (contents w c)) vs) ∧
    (∀ cb ≠ ChangeCb.none,
      let mirror := (expectedAll ops (w.caches c).cOps cb (viewOf ops (contents w c)) vs).foldl (applyEvent ops)
        (viewOf ops (contents w c))
      Mirrors good t (Relation.ReflTransGen (NoDiff ops)) mirror (viewOf ops (contents (notifyAll ops w c cb vs) c)) ∧
      ((∀ a, Member good t a → NoDiff ops a a) →
        (∀ a b d, Member good t a → Member good t b → Member good t d → NoDiff ops a b → NoDiff ops b d → NoDiff ops a d) →
        Mirrors good t (NoDiff ops) mirror (viewOf ops (contents (notifyAll ops w c cb vs) c)))) ∧
    contents (notifyAll ops w c .v1 vs) c = contents (notifyAll ops w c .v2 vs) c ∧
    (notifyAll ops w c .v1 vs).log.map Event.act = (notifyAll ops w c .v2 vs).log.map Event.act := by
  have hregular : ∀ v ∈ vs, Regular ops good (w.caches c) v ∧ Known (w.caches c).cOps v := fun v hv =>
    ⟨⟨by rw [ht]; exact (hvs v hv).1.type, fun _ => by rw [ht]; exact hl, fun _ => (hvs v hv).1.good⟩, (hvs v hv).2⟩
  have hb : ∀ cb, Becomes c w (notifyAll ops w c cb vs) _ _ := fun cb => (h.notifiedAll vs hregular cb).1
  have hfol : ∀ cb, _ := fun cb => Sound.followed hl hupd hs (w.caches c).cOps cb hvs
  refine ⟨fun cb => ?_, fun cb hcb => ?_, ?_, ?_⟩
  · obtain ⟨hsound, hview, hev⟩ := hfol cb
    rw [(hb cb).contents, (hb cb).log, hev]
    exact ⟨hsound, hview, rfl⟩
  · rw [← (hfol cb).2.2, (hb cb).contents]
    constructor
    · have hrefl : ∀ a, Member good t a → Relation.ReflTransGen (NoDiff ops) a a := fun a _ => Relation.ReflTransGen.refl
      exact Mirrors.followed hl hupd hrefl (fun _ _ _ _ _ _ hab hbd => hab.tail hbd) hs hcb hvs (hs.mirrors_self hrefl)
    · intro hrefl htrans
      exact Mirrors.followed hl hupd hrefl htrans hs hcb hvs (hs.mirrors_self hrefl)
  · rw [(hb .v1).contents, (hb .v2).contents]
  · rw [(hb .v1).log, (hb .v2).log, List.map_append, List.map_append, acts_eq]

/-- an object appears, changes and goes away again -/
def sampleMessages : List (ObjVal (ℕ × ℕ)) := [sampleVal 1 10, sampleVal 1 20, { sampleVal 1 20 with ceMsgtype := 2 }]

theorem sample_messages : ∀ v ∈ sampleMessages, Member (CarriesId sampleOps) 0 v ∧ Known (sampleStore.caches 0).cOps v := by
  intro v hv
  fin_cases hv
  · exact ⟨⟨rfl, rfl⟩, Or.inl rfl⟩
  · exact ⟨⟨rfl, rfl⟩, Or.inl rfl⟩
  · exact ⟨⟨rfl, rfl⟩, Or.inr rfl⟩

/-- the three messages are followed -/
theorem notifications_tracked_sample : (notifyAll sampleOps sampleStore 0 .v1 sampleMessages).log =
    [.v1 (sampleVal 1 10) .new, .v1 (sampleVal 1 20) .change, .v1 (sampleVal 1 20) .del] := by
  obtain ⟨hcache, -⟩ := notifications_tracked (c := 0) (sample_initial.inv sample_hashedLawful) rfl
    (twoAttr_lawful _ 0) rfl ⟨nofun, List.Pairwise.nil⟩ sampleMessages sample_messages
  rw [(hcache .v1).2.2]
  rfl

/-- objects of which values next to each other do not differ -/
abbrev driftOps : ℕ → ObjectOps (ℕ × ℕ) := twoAttrOps fun a b => decide (b + 1 < a ∨ a + 1 < b)

/-- an object that changes twice, by so little that it does not differ -/
def driftMessages : List (ObjVal (ℕ × ℕ)) := [sampleVal 1 0, sampleVal 1 1, sampleVal 1 2]

/-- **A mirror that drifts.** The type is not updated in place, its identity is an equivalence and the messages are all of
its class. There was one callback, so the mirror has the first object; the cache has the last; and these differ. -/
theorem mirror_drifts : LawfulEquiv driftOps (CarriesId driftOps) 0 ∧ (driftOps 0).ooUpdate = none ∧
    (∀ v ∈ driftMessages, Member (CarriesId driftOps) 0 v ∧ Known (sampleStore.caches 0).cOps v) ∧
    ((notifyAll driftOps sampleStore 0 .v1 driftMessages).log.foldl (applyEvent driftOps) fun _ => none) (sampleVal 1 0) =
      some (sampleVal 1 0) ∧
    viewOf driftOps (contents (notifyAll driftOps sampleStore 0 .v1 driftMessages) 0) (sampleVal 1 0) =
      some (sampleVal 1 2) ∧
    ¬ NoDiff driftOps (sampleVal 1 0) (sampleVal 1 2) := by
  refine ⟨twoAttr_lawful _ 0, rfl, fun v hv => ?_, by decide +kernel, by decide +kernel, ?_⟩
  · fin_cases hv
    · exact ⟨⟨rfl, rfl⟩, Or.inl rfl⟩
    · exact ⟨⟨rfl, rfl⟩, Or.inl rfl⟩
    · exact ⟨⟨rfl, rfl⟩, Or.inl rfl⟩
  · unfold NoDiff
    decide

end Libnl.Cache
