/-
Links referred to by traffic control objects and addresses (`lib/route/tc.c`, `lib/route/addr.c`).

Both kinds of object keep a pointer to the link they are attached to and a reference on it, with a setter, a copy and a
release of their own. Setting no link (`NULL`) gives the reference back and leaves the pointer where it was; setting the
link that is there already gives the reference back before it is taken again.

- `links_balanced_iff`: along a run, links have the references of their callers and of the objects that point to them, and
  no object points to a link that is gone, exactly when no call clears a link that is set, or sets a link once more that
  nobody else holds.
- `setLink_null_dangles`: the shortest run that goes wrong.

Reference counters are integers here, as no run of the library gets near the bounds of an `int`. A call that reaches
`BUG()` ends the process, and the run has no state after it.
-/
import Mathlib.Tactic
import Libnl.Core.Prefix

namespace Libnl.LinkRefs

open Prefix

abbrev LinkId := ℕ
abbrev ObjId := ℕ

/-! ## The code -/

def TCA_ATTR_IFINDEX : BitVec 64 := 0x0004
def TCA_ATTR_LINK : BitVec 64 := 0x0200
def ADDR_ATTR_IFINDEX : BitVec 64 := 0x0010

structure RtnlLink where
  ceRefcnt : ℤ
  lIndex : BitVec 32
  /-- allocated, and not freed -/
  live : Bool

inductive Kind where
  | tc
  | addr
deriving DecidableEq

/-- what `struct rtnl_tc` and `struct rtnl_addr` know of their link -/
structure Obj where
  kind : Kind
  ceRefcnt : ℤ
  ceMask : BitVec 64
  link : Option LinkId
  ifindex : BitVec 32
  /-- not freed -/
  live : Bool

structure State where
  links : LinkId → RtnlLink
  /-- all objects there have been, by their number -/
  objs : List Obj

def State.setLink (s : State) (l : LinkId) (x : RtnlLink) : State := { s with links := Function.update s.links l x }

def State.setObj (s : State) (o : ObjId) (x : Obj) : State := { s with objs := s.objs.set o x }

/-- `nl_object_get` on a link -/
def linkGet (s : State) (l : LinkId) : State :=
  s.setLink l { s.links l with ceRefcnt := (s.links l).ceRefcnt + 1 }

/-- `nl_object_put` on a link; `none` is where `BUG()` is reached -/
def rtnlLinkPut (s : State) : Option LinkId → Option State
  | none => some s
  | some l =>
    let refcnt := (s.links l).ceRefcnt - 1
    if refcnt < 0 then none
    else some (s.setLink l
      { s.links l with ceRefcnt := refcnt, live := if refcnt ≤ 0 then false else (s.links l).live })

def rtnlTcSetIfindex (s : State) (o : ObjId) (tc : Obj) (ifindex : BitVec 32) : Option State :=
  match rtnlLinkPut s tc.link with
  | none => none
  | some s => some (s.setObj o { tc with
      link := none
      ceMask := tc.ceMask &&& ~~~TCA_ATTR_LINK ||| TCA_ATTR_IFINDEX
      ifindex := ifindex })

def rtnlTcSetLink (s : State) (o : ObjId) (tc : Obj) (link : Option LinkId) : Option State :=
  match rtnlLinkPut s tc.link with
  | none => none
  | some s =>
    match link with
    | none => some s
    | some l =>
      if (s.links l).lIndex = 0 then none
      else some ((linkGet s l).setObj o { tc with
        link := some l
        ifindex := (s.links l).lIndex
        ceMask := tc.ceMask ||| (TCA_ATTR_LINK ||| TCA_ATTR_IFINDEX) })

def rtnlAddrSetLink (s : State) (o : ObjId) (addr : Obj) (link : Option LinkId) : Option State :=
  match rtnlLinkPut s addr.link with
  | none => none
  | some s =>
    match link with
    | none => some s
    | some l => some ((linkGet s l).setObj o { addr with
        link := some l
        ifindex := (s.links l).lIndex
        ceMask := addr.ceMask ||| ADDR_ATTR_IFINDEX })

/-- `rtnl_tc_free_data`, `addr_free_data` -/
def freeData (s : State) (x : Obj) : Option State := rtnlLinkPut s x.link

/-- `nl_object_put` on an object -/
def nlObjectPut (s : State) (o : ObjId) (x : Obj) : Option State :=
  let refcnt := x.ceRefcnt - 1
  if refcnt < 0 then none
  else if refcnt ≤ 0 then
    match freeData s x with
    | none => none
    | some s => some (s.setObj o { x with ceRefcnt := refcnt, live := false })
  else some (s.setObj o { x with ceRefcnt := refcnt })

/-- what memory there is for a copy -/
inductive CloneMem where
  | noObject
  /-- an allocation of `oo_clone` fails -/
  | noData
  | enough

/-- `nl_object_clone` with `rtnl_tc_clone` or `addr_clone`, which take the reference on the link first -/
def nlObjectClone (s : State) (x : Obj) : CloneMem → Option State
  | .noObject => some s
  | mem =>
    let new := { x with ceRefcnt := 1, live := true }
    let s := match x.link with
      | some l => linkGet s l
      | none => s
    match mem with
    | .enough => some { s with objs := s.objs ++ [new] }
    | _ => freeData s new

/-! ## Runs -/

/-- the state, and how many references callers hold on each link -/
structure Sys where
  state : State
  held : LinkId → ℕ

inductive Call where
  | linkAlloc (l : LinkId) (index : BitVec 32)
  | linkGet (l : LinkId)
  | linkPut (l : LinkId)
  | alloc (kind : Kind)
  | get (o : ObjId)
  | put (o : ObjId)
  | clone (o : ObjId) (mem : CloneMem)
  | tcSetLink (o : ObjId) (link : Option LinkId)
  | tcSetIfindex (o : ObjId) (ifindex : BitVec 32)
  | addrSetLink (o : ObjId) (link : Option LinkId)

/-- a call on an object that is there -/
def onObj (s : Sys) (o : ObjId) (f : Obj → Option State) : Option Sys :=
  match s.state.objs[o]? with
  | none => some s
  | some x => (f x).map fun s' => ⟨s', s.held⟩

def step (s : Sys) : Call → Option Sys
  | .linkAlloc l index => some ⟨s.state.setLink l ⟨1, index, true⟩, Function.update s.held l 1⟩
  | .linkGet l => some ⟨linkGet s.state l, Function.update s.held l (s.held l + 1)⟩
  | .linkPut l => (rtnlLinkPut s.state (some l)).map fun s' => ⟨s', Function.update s.held l (s.held l - 1)⟩
  | .alloc kind => some { s with state.objs := s.state.objs ++ [⟨kind, 1, 0, none, 0, true⟩] }
  | .get o => onObj s o fun x => some (s.state.setObj o { x with ceRefcnt := x.ceRefcnt + 1 })
  | .put o => onObj s o fun x => nlObjectPut s.state o x
  | .clone o mem => onObj s o fun x => nlObjectClone s.state x mem
  | .tcSetLink o link => onObj s o fun x => rtnlTcSetLink s.state o x link
  | .tcSetIfindex o ifindex => onObj s o fun x => rtnlTcSetIfindex s.state o x ifindex
  | .addrSetLink o link => onObj s o fun x => rtnlAddrSetLink s.state o x link

/-- no links, and no objects -/
def start : Sys := ⟨⟨fun _ => ⟨0, 0, false⟩, []⟩, fun _ => 0⟩

def run (calls : List Call) : Option Sys := calls.foldlM step start

/-- the object is there, alive and of the kind -/
def Alive (s : Sys) (o : ObjId) (kind : Obj → Prop) : Prop :=
  ∃ x, s.state.objs[o]? = some x ∧ x.live = true ∧ kind x

/-- the link passed is none, or alive -/
def LinkAlive (s : Sys) (link : Option LinkId) : Prop := ∀ l, link = some l → (s.state.links l).live = true

/-- what is asked of a caller: links and objects are used while they live, references are given back by who holds them -/
def Legal (s : Sys) : Call → Prop
  | .linkAlloc l _ => (s.state.links l).live = false
  | .linkGet l => (s.state.links l).live = true
  | .linkPut l => 0 < s.held l
  | .alloc _ => True
  | .get o => Alive s o fun _ => True
  | .put o => Alive s o fun _ => True
  | .clone o _ => Alive s o fun _ => True
  | .tcSetLink o link => Alive s o (fun x => x.kind = .tc) ∧ LinkAlive s link
  | .tcSetIfindex o _ => Alive s o fun x => x.kind = .tc
  | .addrSetLink o link => Alive s o (fun x => x.kind = .addr) ∧ LinkAlive s link

/-- a live object whose link field points to the link -/
def pointsTo (l : LinkId) (x : Obj) : Bool := x.live && decide (x.link = some l)

/-- the references there should be on a link -/
def due (objs : List Obj) (held : LinkId → ℕ) (l : LinkId) : ℤ := held l + objs.countP (pointsTo l)

structure Balanced (s : Sys) : Prop where
  refs : ∀ l, (s.state.links l).ceRefcnt = due s.state.objs s.held l
  /-- no object points to a link that has been freed -/
  live : ∀ x ∈ s.state.objs, x.live = true → ∀ l, x.link = some l → (s.state.links l).live = true

/-- the call neither clears a link that is set, nor sets one again that only this object holds -/
def ReplacesLink (s : Sys) (o : ObjId) : Option LinkId → Prop
  | none => ∀ x, s.state.objs[o]? = some x → x.link = none
  | some l => ∀ x, s.state.objs[o]? = some x → x.link = some l → 1 < (s.state.links l).ceRefcnt

def Sound (s : Sys) : Call → Prop
  | .tcSetLink o link => ReplacesLink s o link
  | .addrSetLink o link => ReplacesLink s o link
  | _ => True

/-! ## Counting -/

/-- the links have the references `f` says, and live while they have some -/
structure Counts (links : LinkId → RtnlLink) (f : LinkId → ℤ) : Prop where
  refs : ∀ l, (links l).ceRefcnt = f l
  live : ∀ l, (links l).live = true ↔ 0 < f l

/-- `d` references more on the link, if it is one -/
def shift (f : LinkId → ℤ) (link : Option LinkId) (d : ℤ) : LinkId → ℤ := fun l => f l + if link = some l then d else 0

theorem Counts.get {s : State} {f : LinkId → ℤ} (h : Counts s.links f) {l : LinkId} (hl : (s.links l).live = true) :
    Counts (linkGet s l).links (shift f (some l) 1) := by
  have hpos := (h.live l).1 hl
  refine ⟨fun k => ?_, fun k => ?_⟩
  · by_cases hk : k = l
    · subst hk
      simp [linkGet, State.setLink, shift, h.refs k]
    · simp [linkGet, State.setLink, shift, hk, Ne.symm hk, h.refs k]
  · by_cases hk : k = l
    · subst hk
      simp only [linkGet, State.setLink, shift, Function.update_self, hl, if_true, true_iff]
      omega
    · simpa [linkGet, State.setLink, shift, hk, Ne.symm hk] using h.live k

/-- a reference that is there is given back -/
theorem Counts.put {s : State} {f : LinkId → ℤ} (h : Counts s.links f) {link : Option LinkId}
    (hl : ∀ l, link = some l → 0 < f l) :
    ∃ links', rtnlLinkPut s link = some { s with links := links' } ∧ Counts links' (shift f link (-1)) := by
  cases link with
  | none =>
    refine ⟨s.links, rfl, ?_⟩
    have hf : shift f none (-1) = f := by
      funext k
      simp [shift]
    rw [hf]
    exact h
  | some l =>
    have hpos := hl l rfl
    have hrefs := h.refs l
    have hnot : ¬ (s.links l).ceRefcnt - 1 < 0 := by omega
    refine ⟨_, by rw [rtnlLinkPut, if_neg hnot]; rfl, fun k => ?_, fun k => ?_⟩
    · by_cases hk : k = l
      · subst hk
        simp only [Function.update_self, shift, if_true]
        omega
      · simp [shift, hk, Ne.symm hk, h.refs k]
    · by_cases hk : k = l
      · subst hk
        have hlive := (h.live k).2 hpos
        simp only [Function.update_self, shift, if_true, hlive]
        split_ifs <;> simp <;> omega
      · simpa [shift, hk, Ne.symm hk] using h.live k

theorem due_append (objs : List Obj) (x : Obj) (held : LinkId → ℕ) (l : LinkId) :
    due (objs ++ [x]) held l = due objs held l + if pointsTo l x then 1 else 0 := by
  unfold due
  rw [List.countP_append, List.countP_singleton]
  split_ifs <;> push_cast <;> ring

theorem due_set {objs : List Obj} {o : ObjId} {x : Obj} (hx : objs[o]? = some x) (y : Obj) (held : LinkId → ℕ)
    (l : LinkId) : due (objs.set o y) held l =
      due objs held l - (if pointsTo l x then 1 else 0) + if pointsTo l y then 1 else 0 := by
  obtain ⟨hlt, hget⟩ := List.getElem?_eq_some_iff.1 hx
  unfold due
  rw [List.countP_set hlt, hget]
  by_cases hp : pointsTo l x = true
  · have hpos : 0 < objs.countP (pointsTo l) := List.countP_pos_iff.2 ⟨x, List.mem_of_getElem? hx, hp⟩
    simp only [hp, if_true]
    split_ifs <;> omega
  · simp only [hp, if_false, Bool.false_eq_true]
    split_ifs <;> omega

/-- an object that points to a link has a reference on it -/
theorem due_pos {objs : List Obj} {o : ObjId} {x : Obj} (hx : objs[o]? = some x) (hlive : x.live = true)
    (held : LinkId → ℕ) (l : LinkId) (hl : x.link = some l) : 0 < due objs held l := by
  have hpos : 0 < objs.countP (pointsTo l) :=
    List.countP_pos_iff.2 ⟨x, List.mem_of_getElem? hx, by simp [pointsTo, hlive, hl]⟩
  unfold due
  omega

/-- **Invariant.** The references are those that are due, and links live while they have some. -/
def Inv (s : Sys) : Prop := Counts s.state.links (due s.state.objs s.held)

theorem start_inv : Inv start := ⟨fun _ => rfl, fun _ => by simp [start, due]⟩

theorem Inv.balanced {s : Sys} (h : Inv s) : Balanced s where
  refs := h.refs
  live x hx hlive l hl := by
    obtain ⟨o, ho⟩ := List.mem_iff_getElem?.1 hx
    exact (h.live l).2 (due_pos ho hlive s.held l hl)

/-! ## One call -/

/-- the link of an object is given up, and the object points to no link -/
theorem Inv.released {s : Sys} (h : Inv s) {o : ObjId} {x y : Obj} (hx : s.state.objs[o]? = some x)
    (hlive : x.live = true) (hy : ∀ l, pointsTo l y = false) :
    ∃ s', rtnlLinkPut s.state x.link = some s' ∧ Inv ⟨s'.setObj o y, s.held⟩ := by
  obtain ⟨links', hput, hc⟩ := Counts.put h (due_pos hx hlive s.held)
  refine ⟨_, hput, ?_⟩
  have hdue : due (s.state.objs.set o y) s.held = shift (due s.state.objs s.held) x.link (-1) := by
    funext l
    rw [due_set hx, hy]
    simp only [shift, pointsTo, hlive, Bool.true_and, decide_eq_true_eq, Bool.false_eq_true, if_false]
    split_ifs <;> ring
  simp only [Inv, State.setObj, hdue]
  exact hc

/-- an object is changed, and points to the link it pointed to -/
theorem Inv.touched {s : Sys} (h : Inv s) {o : ObjId} {x y : Obj} (hx : s.state.objs[o]? = some x)
    (hy : ∀ l, pointsTo l y = pointsTo l x) : Inv ⟨s.state.setObj o y, s.held⟩ := by
  have hdue : due (s.state.objs.set o y) s.held = due s.state.objs s.held := by
    funext l
    rw [due_set hx, hy]
    ring
  simp only [Inv, State.setObj, hdue]
  exact h

/-- the link of an object is replaced by one that lives on when the old one is given back -/
theorem Inv.replaced {s : Sys} (h : Inv s) {o : ObjId} {x : Obj} (hx : s.state.objs[o]? = some x)
    (hlive : x.live = true) {l : LinkId} (hl : (s.state.links l).live = true)
    (hsame : x.link = some l → 1 < (s.state.links l).ceRefcnt) :
    ∃ s', rtnlLinkPut s.state x.link = some s' ∧
      ∀ y : Obj, y.live = true → y.link = some l → Inv ⟨(linkGet s' l).setObj o y, s.held⟩ := by
  obtain ⟨links', hput, hc⟩ := Counts.put h (due_pos hx hlive s.held)
  refine ⟨_, hput, fun y hylive hylink => ?_⟩
  have hl' : (links' l).live = true := by
    rw [hc.live l, shift]
    have hpos := (h.live l).1 hl
    by_cases heq : x.link = some l
    · have hrefs := h.refs l
      have := hsame heq
      rw [if_pos heq]
      omega
    · rw [if_neg heq]
      omega
  have hdue : due (s.state.objs.set o y) s.held = shift (shift (due s.state.objs s.held) x.link (-1)) (some l) 1 := by
    funext k
    rw [due_set hx]
    simp only [shift, pointsTo, hlive, hylive, hylink, Bool.true_and, decide_eq_true_eq]
    split_ifs <;> ring
  have hget := hc.get (s := { s.state with links := links' }) hl'
  simp only [Inv, linkGet, State.setLink, State.setObj, hdue] at hget ⊢
  exact hget

/-- the copy takes a reference on the link, and gives it back if it fails -/
theorem Inv.clone {s : Sys} (h : Inv s) {o : ObjId} {x : Obj} (hx : s.state.objs[o]? = some x) (hlive : x.live = true)
    (mem : CloneMem) : ∃ s', nlObjectClone s.state x mem = some s' ∧ Inv ⟨s', s.held⟩ := by
  obtain ⟨links', hlinks', hc⟩ : ∃ links', (match x.link with
      | some l => linkGet s.state l
      | none => s.state) = { s.state with links := links' } ∧
      Counts links' (shift (due s.state.objs s.held) x.link 1) := by
    cases hlink : x.link with
    | none =>
      refine ⟨s.state.links, rfl, ?_⟩
      have hf : shift (due s.state.objs s.held) none 1 = due s.state.objs s.held := by
        funext k
        simp [shift]
      rw [hf]
      exact h
    | some l => exact ⟨_, rfl, Counts.get h ((h.live l).2 (due_pos hx hlive s.held l hlink))⟩
  cases mem with
  | noObject => exact ⟨_, rfl, h⟩
  | enough =>
    refine ⟨{ s.state with links := links', objs := s.state.objs ++ [{ x with ceRefcnt := 1, live := true }] }, ?_, ?_⟩
    · simp only [nlObjectClone, hlinks']
    · have hdue : due (s.state.objs ++ [{ x with ceRefcnt := 1, live := true }]) s.held =
          shift (due s.state.objs s.held) x.link 1 := by
        funext l
        rw [due_append]
        simp [shift, pointsTo]
      simp only [Inv, hdue]
      exact hc
  | noData =>
    have hpos : ∀ l, x.link = some l → 0 < shift (due s.state.objs s.held) x.link 1 l := fun l hl => by
      have := due_pos hx hlive s.held l hl
      simp only [shift, hl, if_true]
      omega
    obtain ⟨links'', hput, hc''⟩ := Counts.put (s := { s.state with links := links' }) hc hpos
    refine ⟨{ s.state with links := links'' }, ?_, ?_⟩
    · simp only [nlObjectClone, hlinks', freeData, hput]
    · have hf : shift (shift (due s.state.objs s.held) x.link 1) x.link (-1) = due s.state.objs s.held := by
        funext k
        simp only [shift]
        split_ifs <;> ring
      rw [hf] at hc''
      exact hc''

/-- the setter of either kind, on an object whose link is replaced as it should be -/
theorem Inv.setLink {s : Sys} (h : Inv s) {o : ObjId} {x : Obj} (hx : s.state.objs[o]? = some x) (hlive : x.live = true)
    {link : Option LinkId} (hl : LinkAlive s link) (hok : ReplacesLink s o link) :
    ∃ s', rtnlLinkPut s.state x.link = some s' ∧ (link = none → Inv ⟨s', s.held⟩) ∧
      ∀ l, link = some l → ∀ y : Obj, y.live = true → y.link = some l → Inv ⟨(linkGet s' l).setObj o y, s.held⟩ := by
  cases link with
  | none =>
    have hnone := hok x hx
    refine ⟨s.state, by rw [hnone]; rfl, fun _ => h, nofun⟩
  | some l =>
    obtain ⟨s', hput, hs'⟩ := h.replaced hx hlive (hl l rfl) (hok x hx)
    refine ⟨s', hput, nofun, fun k hk => ?_⟩
    cases hk
    exact hs'

theorem Inv.linkPut {s s' : Sys} (h : Inv s) {l : LinkId} (hl : 0 < s.held l) (hs : step s (.linkPut l) = some s') :
    Inv s' := by
  have hpos : ∀ k, some l = some k → 0 < due s.state.objs s.held k := by
    rintro k ⟨⟩
    unfold due
    omega
  obtain ⟨links', hput, hc⟩ := Counts.put h hpos
  simp only [step, hput, Option.map_some, Option.some.injEq] at hs
  subst hs
  have hdue : due s.state.objs (Function.update s.held l (s.held l - 1)) =
      shift (due s.state.objs s.held) (some l) (-1) := by
    funext k
    by_cases hk : k = l
    · subst hk
      simp only [due, shift, Function.update_self, if_true]
      omega
    · simp [due, shift, hk, Ne.symm hk]
  simp only [Inv, hdue]
  exact hc

theorem Inv.linkGet {s : Sys} (h : Inv s) {l : LinkId} (hl : (s.state.links l).live = true) :
    Inv ⟨LinkRefs.linkGet s.state l, Function.update s.held l (s.held l + 1)⟩ := by
  have hdue : due s.state.objs (Function.update s.held l (s.held l + 1)) =
      shift (due s.state.objs s.held) (some l) 1 := by
    funext k
    by_cases hk : k = l
    · subst hk
      simp only [due, shift, Function.update_self, if_true]
      omega
    · simp [due, shift, hk, Ne.symm hk]
  have hget := Counts.get h hl
  simp only [Inv, LinkRefs.linkGet, State.setLink, hdue] at hget ⊢
  exact hget

theorem Inv.linkAlloc {s : Sys} (h : Inv s) {l : LinkId} (hl : (s.state.links l).live = false) (index : BitVec 32) :
    Inv ⟨s.state.setLink l ⟨1, index, true⟩, Function.update s.held l 1⟩ := by
  have hgone : due s.state.objs s.held l ≤ 0 := by
    by_contra hpos
    have := (h.live l).2 (by omega)
    rw [hl] at this
    exact Bool.false_ne_true this
  have hdue : due s.state.objs (Function.update s.held l 1) = Function.update (due s.state.objs s.held) l 1 := by
    funext k
    by_cases hk : k = l
    · subst hk
      simp only [due, Function.update_self] at hgone ⊢
      omega
    · simp [due, hk]
  refine ⟨fun k => ?_, fun k => ?_⟩
  · by_cases hk : k = l
    · subst hk
      simp [State.setLink, hdue]
    · simp [State.setLink, hdue, hk, h.refs k]
  · by_cases hk : k = l
    · subst hk
      simp [State.setLink, hdue]
    · simpa [State.setLink, hdue, hk] using h.live k

/-- **One call.** -/
theorem Inv.step {s s' : Sys} (h : Inv s) {call : Call} (hl : Legal s call) (hok : Sound s call)
    (hs : step s call = some s') : Inv s' := by
  cases call with
  | linkAlloc l index =>
    cases hs
    exact h.linkAlloc hl index
  | linkGet l =>
    cases hs
    exact h.linkGet hl
  | linkPut l => exact h.linkPut hl hs
  | alloc kind =>
    cases hs
    have hdue : due (s.state.objs ++ [⟨kind, 1, 0, none, 0, true⟩]) s.held = due s.state.objs s.held := by
      funext l
      rw [due_append]
      simp [pointsTo]
    simp only [Inv, hdue]
    exact h
  | get o =>
    obtain ⟨x, hx, -, -⟩ := hl
    simp only [LinkRefs.step, onObj, hx, Option.map_some, Option.some.injEq] at hs
    subst hs
    exact h.touched hx fun l => rfl
  | put o =>
    obtain ⟨x, hx, hlive, -⟩ := hl
    simp only [LinkRefs.step, onObj, hx, nlObjectPut] at hs
    by_cases hneg : x.ceRefcnt - 1 < 0
    · rw [if_pos hneg] at hs
      cases hs
    · rw [if_neg hneg] at hs
      by_cases hlast : x.ceRefcnt - 1 ≤ 0
      · obtain ⟨s1, hput, hinv⟩ := h.released (y := { x with ceRefcnt := x.ceRefcnt - 1, live := false }) hx hlive
          fun l => rfl
        simp only [if_pos hlast, freeData, hput, Option.map_some, Option.some.injEq] at hs
        subst hs
        exact hinv
      · simp only [if_neg hlast, Option.map_some, Option.some.injEq] at hs
        subst hs
        exact h.touched hx fun l => rfl
  | clone o mem =>
    obtain ⟨x, hx, hlive, -⟩ := hl
    obtain ⟨s1, hclone, hinv⟩ := h.clone hx hlive mem
    simp only [LinkRefs.step, onObj, hx, hclone, Option.map_some, Option.some.injEq] at hs
    subst hs
    exact hinv
  | tcSetIfindex o ifindex =>
    obtain ⟨x, hx, hlive, -⟩ := hl
    obtain ⟨s1, hput, hinv⟩ := h.released (y := { x with
      link := none
      ceMask := x.ceMask &&& ~~~TCA_ATTR_LINK ||| TCA_ATTR_IFINDEX
      ifindex := ifindex }) hx hlive fun l => by simp [pointsTo]
    simp only [LinkRefs.step, onObj, hx, rtnlTcSetIfindex, hput, Option.map_some, Option.some.injEq] at hs
    subst hs
    exact hinv
  | tcSetLink o link =>
    obtain ⟨⟨x, hx, hlive, -⟩, hlink⟩ := hl
    obtain ⟨s1, hput, hnone, hsome⟩ := h.setLink hx hlive hlink hok
    simp only [LinkRefs.step, onObj, hx, rtnlTcSetLink, hput] at hs
    cases link with
    | none =>
      cases hs
      exact hnone rfl
    | some l =>
      by_cases hindex : (s1.links l).lIndex = 0
      · simp [hindex] at hs
      · simp only [if_neg hindex, Option.map_some, Option.some.injEq] at hs
        subst hs
        exact hsome l rfl _ hlive rfl
  | addrSetLink o link =>
    obtain ⟨⟨x, hx, hlive, -⟩, hlink⟩ := hl
    obtain ⟨s1, hput, hnone, hsome⟩ := h.setLink hx hlive hlink hok
    simp only [LinkRefs.step, onObj, hx, rtnlAddrSetLink, hput] at hs
    cases link with
    | none =>
      cases hs
      exact hnone rfl
    | some l =>
      cases hs
      exact hsome l rfl _ hlive rfl

/-- a link that is cleared: its pointer stays, and no reference for it -/
theorem Inv.cleared {s : Sys} (h : Inv s) {o : ObjId} {x : Obj} (hx : s.state.objs[o]? = some x)
    (hlive : x.live = true) (hset : x.link ≠ none) {s' : State} (hput : rtnlLinkPut s.state x.link = some s') :
    ¬ Balanced ⟨s', s.held⟩ := by
  intro hbal
  obtain ⟨l, hl⟩ := Option.ne_none_iff_exists'.1 hset
  obtain ⟨links', hput', hc⟩ := Counts.put h (due_pos hx hlive s.held)
  cases hput.symm.trans hput'
  have hrefs := hbal.refs l
  have hcount := hc.refs l
  simp only [shift, hl, if_true] at hcount
  simp only at hrefs
  omega

/-- a link set again that nobody else holds: the object points to a link that has been freed -/
theorem Inv.lost {s : Sys} (h : Inv s) {o : ObjId} {x : Obj} (hx : s.state.objs[o]? = some x) (hlive : x.live = true)
    {l : LinkId} (hl : x.link = some l) (honly : ¬ 1 < (s.state.links l).ceRefcnt) {s' : State}
    (hput : rtnlLinkPut s.state x.link = some s') {y : Obj} (hylive : y.live = true) (hylink : y.link = some l) :
    ¬ Balanced ⟨(LinkRefs.linkGet s' l).setObj o y, s.held⟩ := by
  intro hbal
  obtain ⟨hlt, -⟩ := List.getElem?_eq_some_iff.1 hx
  obtain ⟨links', hput', hc⟩ := Counts.put h (due_pos hx hlive s.held)
  cases hput.symm.trans hput'
  have hgone := hbal.live y (List.mem_set hlt y) hylive l hylink
  simp only [LinkRefs.linkGet, State.setLink, State.setObj, Function.update_self] at hgone
  have hpos := (hc.live l).1 hgone
  have hrefs := h.refs l
  simp only [shift, hl, if_true] at hpos
  omega

/-- **A call that goes wrong.** -/
theorem Inv.unsound {s s' : Sys} (h : Inv s) {call : Call} (hl : Legal s call) (hnot : ¬ Sound s call)
    (hs : LinkRefs.step s call = some s') : ¬ Balanced s' := by
  cases call with
  | tcSetLink o link =>
    obtain ⟨⟨x, hx, hlive, -⟩, -⟩ := hl
    cases hput : rtnlLinkPut s.state x.link with
    | none => simp [LinkRefs.step, onObj, hx, rtnlTcSetLink, hput] at hs
    | some s1 =>
      simp only [LinkRefs.step, onObj, hx, rtnlTcSetLink, hput] at hs
      cases link with
      | none =>
        cases hs
        refine h.cleared hx hlive (fun hnone => hnot fun x' hx' => ?_) hput
        cases hx.symm.trans hx'
        exact hnone
      | some l =>
        by_cases hindex : (s1.links l).lIndex = 0
        · simp [hindex] at hs
        · simp only [if_neg hindex, Option.map_some, Option.some.injEq] at hs
          subst hs
          simp only [Sound, ReplacesLink, hx, Option.some.injEq, forall_eq', Classical.not_imp] at hnot
          exact h.lost hx hlive hnot.1 hnot.2 hput hlive rfl
  | addrSetLink o link =>
    obtain ⟨⟨x, hx, hlive, -⟩, -⟩ := hl
    cases hput : rtnlLinkPut s.state x.link with
    | none => simp [LinkRefs.step, onObj, hx, rtnlAddrSetLink, hput] at hs
    | some s1 =>
      simp only [LinkRefs.step, onObj, hx, rtnlAddrSetLink, hput] at hs
      cases link with
      | none =>
        cases hs
        refine h.cleared hx hlive (fun hnone => hnot fun x' hx' => ?_) hput
        cases hx.symm.trans hx'
        exact hnone
      | some l =>
        cases hs
        simp only [Sound, ReplacesLink, hx, Option.some.injEq, forall_eq', Classical.not_imp] at hnot
        exact h.lost hx hlive hnot.1 hnot.2 hput hlive rfl
  | _ => exact absurd trivial hnot

/-! ## Runs -/

theorem run_concat (calls : List Call) (call : Call) : run (calls ++ [call]) = (run calls).bind fun s => step s call := by
  unfold run
  rw [List.foldlM_append]
  cases calls.foldlM step start with
  | none => rfl
  | some s => simp

/-- **Link references.** Along a run, after every prefix, links have the references of callers and objects and no live
object points to a link that is gone, exactly when no call clears a link that is set, or sets again one that only the
object holds. -/
theorem links_balanced_iff (calls : List Call)
    (hlegal : ∀ as call, as ++ [call] <+: calls → ∀ s, run as = some s → Legal s call) :
    (∀ as, as <+: calls → ∀ s, run as = some s → Balanced s) ↔
      ∀ as call, as ++ [call] <+: calls → ∀ s s', run as = some s → step s call = some s' → Sound s call := by
  refine all_prefixes_iff_inv (I := fun as => ∀ s, run as = some s → Inv s) calls ?_ ?_ ?_ ?_
  · rintro s ⟨⟩
    exact start_inv
  · intro as _ h s hs
    exact (h s hs).balanced
  · intro as call hpre h hok s' hs'
    rw [run_concat] at hs'
    obtain ⟨s, hs, hstep⟩ := Option.bind_eq_some_iff.1 hs'
    exact (h s hs).step (hlegal as call hpre s hs) (hok s s' hs hstep) hstep
  · intro as call hpre h hnot hbal
    refine hnot fun s s' hs hstep => ?_
    by_contra hunsound
    have hs' : run (as ++ [call]) = some s' := by rw [run_concat, hs]; exact hstep
    exact (h s hs).unsound (hlegal as call hpre s hs) hunsound hstep (hbal s' hs')

/-- a link given to a qdisc, which is copied and gets another link before the first is given back -/
def sampleCalls : List Call :=
  [.linkAlloc 0 7, .linkAlloc 1 8, .alloc .tc, .tcSetLink 0 (some 0), .clone 0 .enough, .tcSetLink 0 (some 1), .put 1]

theorem links_balanced_iff_sample : ∃ s, run sampleCalls = some s ∧ Balanced s := by
  obtain ⟨s, hs⟩ : ∃ s, run sampleCalls = some s := ⟨_, rfl⟩
  refine ⟨s, hs, (links_balanced_iff sampleCalls ?_).2 ?_ sampleCalls List.prefix_rfl s hs⟩
  · clear s hs
    refine each_cons ?_ (each_cons ?_ (each_cons ?_ (each_cons ?_ (each_cons ?_ (each_cons ?_ (each_cons ?_
      (each_nil _)))))))
    · rintro s ⟨⟩
      rfl
    · rintro s ⟨⟩
      rfl
    · rintro s ⟨⟩
      trivial
    · rintro s ⟨⟩
      exact ⟨⟨_, rfl, rfl, rfl⟩, fun l hl => by cases hl; rfl⟩
    · rintro s ⟨⟩
      exact ⟨_, rfl, rfl, trivial⟩
    · rintro s ⟨⟩
      exact ⟨⟨_, rfl, rfl, rfl⟩, fun l hl => by cases hl; rfl⟩
    · rintro s ⟨⟩
      exact ⟨_, rfl, rfl, trivial⟩
  · clear s hs
    refine each_cons ?_ (each_cons ?_ (each_cons ?_ (each_cons ?_ (each_cons ?_ (each_cons ?_ (each_cons ?_
      (each_nil _)))))))
    all_goals rintro s s' ⟨⟩ -
    · trivial
    · trivial
    · trivial
    · rintro x ⟨⟩ h
      cases h
    · trivial
    · rintro x ⟨⟩ h
      cases h
    · trivial

/-- **A link is cleared.** The qdisc still points to it, and only the caller's reference is left. -/
theorem setLink_null_dangles :
    (∀ as call, as ++ [call] <+: [Call.linkAlloc 0 7, .alloc .tc, .tcSetLink 0 (some 0), .tcSetLink 0 none] →
      ∀ s, run as = some s → Legal s call) ∧
    ∃ s, run [.linkAlloc 0 7, .alloc .tc, .tcSetLink 0 (some 0), .tcSetLink 0 none] = some s ∧ ¬ Balanced s := by
  constructor
  · refine each_cons ?_ (each_cons ?_ (each_cons ?_ (each_cons ?_ (each_nil _))))
    · rintro s ⟨⟩
      rfl
    · rintro s ⟨⟩
      trivial
    · rintro s ⟨⟩
      exact ⟨⟨_, rfl, rfl, rfl⟩, fun l hl => by cases hl; rfl⟩
    · rintro s ⟨⟩
      exact ⟨⟨_, rfl, rfl, rfl⟩, nofun⟩
  · refine ⟨_, rfl, fun hbal => ?_⟩
    exact absurd (hbal.refs 0) (by decide)

end Libnl.LinkRefs
