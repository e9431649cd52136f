/-
The u32 classifier through a message (`u32_msg_fill` and `u32_msg_parser`, `lib/route/cls/u32.c`).

All setters of the selector store into one block of data, but only two of them set the bit that says that there is a selector;
and the writer goes by the bit. What the other setters stored is then left out.

`Want` says what a caller asked for: each attribute with its value, and whether the selector was marked. A classifier that was
built with setters is one of these (`built`), and what comes out of a message is that of a `Want` without a selector that was
not marked (`filled_then_parsed`).

- `setter_asks`: what a setter adds.
- `u32_codec_iff`: which classifiers come back. `hash_mask_is_lost`: one that does not.
-/
import Mathlib.Tactic
import Libnl.Route.U32

namespace Libnl.U32

open Bytes Layout Msg Attr AttrWalk AttrTree AttrStream Writer Fields
open Data Mask Actions

section

variable [HostOrder] {modules : List ActOps}

/-! ## What a caller asked for -/

variable (modules) in
structure Want where
  divisor : Option (BitVec 32)
  hash : Option (BitVec 32)
  classid : Option (BitVec 32)
  link : Option (BitVec 32)
  sel : Option (List UInt8)
  /-- a setter said that there is a selector -/
  marked : Bool
  mark : Option (List UInt8)
  acts : List (Act modules)

def Want.bits (w : Want modules) : List (BitVec 32 × Bool) :=
  [(U32_ATTR_DIVISOR, w.divisor.isSome), (U32_ATTR_SELECTOR, w.marked), (U32_ATTR_MARK, w.mark.isSome),
    (U32_ATTR_HASH, w.hash.isSome), (U32_ATTR_CLASSID, w.classid.isSome), (U32_ATTR_LINK, w.link.isSome),
    (U32_ATTR_ACTION, !w.acts.isEmpty), (U32_ATTR_POLICE, false), (U32_ATTR_PCNT, false), (U32_ATTR_INDEV, false)]

/-- the classifier -/
def Want.toU32 (w : Want modules) : RtnlU32 modules :=
  ⟨w.divisor.getD 0, w.hash.getD 0, w.classid.getD 0, w.link.getD 0, none, w.sel, w.mark, w.acts, none, [], maskOf w.bits⟩

theorem Want.bits_separate (w : Want modules) : separate (w.bits.map Prod.fst) = true := by
  show separate [U32_ATTR_DIVISOR, U32_ATTR_SELECTOR, U32_ATTR_MARK, U32_ATTR_HASH, U32_ATTR_CLASSID, U32_ATTR_LINK,
    U32_ATTR_ACTION, U32_ATTR_POLICE, U32_ATTR_PCNT, U32_ATTR_INDEV] = true
  decide

/-- the sizes are those of what is in the data, and a selector with keys is marked -/
structure Want.Ok (w : Want modules) : Prop where
  exact : ∀ sel ∈ w.sel, sel.length = keyOff (nkeysOf sel)
  marked : w.marked = true → w.sel.isSome = true
  counted : 0 < nkeysOf (u32SelectorAlloc w.toU32) → w.marked = true
  mark : ∀ mark ∈ w.mark, mark.length = SIZEOF_MARK

theorem Want.Ok.inv {w : Want modules} (h : w.Ok) : Inv w.toU32 where
  sel sel hsel := (h.exact sel hsel).ge
  bit hbit := h.marked ((maskOf_has w.bits_separate (List.mem_cons_of_mem _ List.mem_cons_self)).1 hbit)
  mark mark hmark := (h.mark mark hmark).ge

theorem Want.Ok.alloc {w : Want modules} (h : w.Ok) :
    (u32SelectorAlloc w.toU32).length = keyOff (nkeysOf (u32SelectorAlloc w.toU32)) := by
  have hcases : u32SelectorAlloc w.toU32 = w.sel.getD (nlDataAlloc none SIZEOF_SEL) := rfl
  rw [hcases]
  cases hsel : w.sel with
  | none =>
    have hzero : nkeysOf (nlDataAlloc none SIZEOF_SEL) = 0 := by decide
    rw [Option.getD_none, hzero]
    rfl
  | some sel => exact h.exact sel hsel

variable (modules) in
def noWant : Want modules := ⟨none, none, none, none, none, false, none, []⟩

theorem noWant_ok : (noWant modules).Ok := by
  refine ⟨nofun, fun h => h, fun h => ?_, nofun⟩
  have hzero : nkeysOf (u32SelectorAlloc (noWant modules).toU32) = 0 := by
    have hzeros : nkeysOf (nlDataAlloc none SIZEOF_SEL) = 0 := by decide
    exact hzeros
  omega

theorem noWant_fresh : (noWant modules).toU32 = freshU32 modules := by
  have hmask : maskOf (noWant modules).bits = 0 := by
    show maskOf [(U32_ATTR_DIVISOR, false), (U32_ATTR_SELECTOR, false), (U32_ATTR_MARK, false), (U32_ATTR_HASH, false),
      (U32_ATTR_CLASSID, false), (U32_ATTR_LINK, false), (U32_ATTR_ACTION, false), (U32_ATTR_POLICE, false),
      (U32_ATTR_PCNT, false), (U32_ATTR_INDEV, false)] = 0
    decide
  unfold Want.toU32
  rw [hmask]
  rfl

/-! ## Setters -/

/-- stores into the selector, and does not say that there is one -/
def Setter.stores : Setter modules → Bool
  | .hashmask _ _ | .selector _ _ _ _ _ | .terminal => true
  | _ => false

/-- says that there is a selector -/
def Setter.marks : Setter modules → Bool
  | .flags _ | .key _ _ _ _ => true
  | _ => false

def Setter.acts : Setter modules → List (Act modules)
  | .action act => [act]
  | _ => []

/-- what was asked for before, and what the setter asks for -/
structure Asks (w : Want modules) (s : Setter modules) (w' : Want modules) : Prop where
  ok : w'.Ok
  marked : w'.marked = (w.marked || s.marks)
  sel : w'.sel.isSome = (w.sel.isSome || s.stores || s.marks)
  acts : w'.acts = w.acts ++ s.acts

/-- a value of its own -/
theorem Want.Ok.other {w w' : Want modules} (h : w.Ok) (hsel : w'.sel = w.sel) (hmarked : w'.marked = w.marked)
    (hmark : w'.mark = w.mark) : w'.Ok := by
  have halloc : u32SelectorAlloc w'.toU32 = u32SelectorAlloc w.toU32 := by
    show w'.sel.getD _ = w.sel.getD _
    rw [hsel]
  refine ⟨?_, ?_, ?_, ?_⟩
  · rw [hsel]
    exact h.exact
  · rw [hmarked, hsel]
    exact h.marked
  · rw [halloc, hmarked]
    exact h.counted
  · rw [hmark]
    exact h.mark

/-- another selector with the same keys -/
theorem Want.Ok.stored {w : Want modules} (h : w.Ok) {sel : List UInt8} (hsame : SameKeys (u32SelectorAlloc w.toU32) sel)
    {marked : Bool} (hmarked : w.marked = true → marked = true) : Want.Ok { w with sel := some sel, marked := marked } where
  exact s hs := by
    obtain rfl := Option.some.inj hs
    rw [hsame.length, hsame.nkeys]
    exact h.alloc
  marked _ := rfl
  counted hpos := by
    refine hmarked (h.counted ?_)
    rw [← hsame.nkeys]
    exact hpos
  mark := h.mark

/-- a setter of the selector -/
theorem Want.Ok.does {w : Want modules} (h : w.Ok) {f : List UInt8 → Option (List UInt8)} (hf : Does f) :
    ∃ sel, f (u32SelectorAlloc w.toU32) = some sel ∧ SameKeys (u32SelectorAlloc w.toU32) sel := by
  obtain ⟨sel, hsel, hsame, -⟩ := h.inv.stores hf
  exact ⟨sel, hsel, hsame⟩

theorem mask_classid (w : Want modules) (v : BitVec 32) :
    maskOf w.bits ||| U32_ATTR_CLASSID = maskOf ({ w with classid := some v } : Want modules).bits :=
  maskOf_set [_, _, _, _] _ U32_ATTR_CLASSID w.classid.isSome

theorem mask_divisor (w : Want modules) (v : BitVec 32) :
    maskOf w.bits ||| U32_ATTR_DIVISOR = maskOf ({ w with divisor := some v } : Want modules).bits :=
  maskOf_set [] _ U32_ATTR_DIVISOR w.divisor.isSome

theorem mask_link (w : Want modules) (v : BitVec 32) :
    maskOf w.bits ||| U32_ATTR_LINK = maskOf ({ w with link := some v } : Want modules).bits :=
  maskOf_set [_, _, _, _, _] _ U32_ATTR_LINK w.link.isSome

theorem mask_hash (w : Want modules) (v : BitVec 32) :
    maskOf w.bits ||| U32_ATTR_HASH = maskOf ({ w with hash := some v } : Want modules).bits :=
  maskOf_set [_, _, _] _ U32_ATTR_HASH w.hash.isSome

theorem mask_selector (w : Want modules) (sel : List UInt8) :
    maskOf w.bits ||| U32_ATTR_SELECTOR = maskOf ({ w with sel := some sel, marked := true } : Want modules).bits :=
  maskOf_set [_] _ U32_ATTR_SELECTOR w.marked

theorem mask_mark (w : Want modules) (mark : List UInt8) :
    maskOf w.bits ||| U32_ATTR_MARK = maskOf ({ w with mark := some mark } : Want modules).bits :=
  maskOf_set [_, _] _ U32_ATTR_MARK w.mark.isSome

theorem mask_action (w : Want modules) (act : Act modules) :
    maskOf w.bits ||| U32_ATTR_ACTION = maskOf ({ w with acts := w.acts ++ [act] } : Want modules).bits := by
  have hsome : (!(w.acts ++ [act]).isEmpty) = true := by
    cases w.acts with
    | nil => rfl
    | cons a acts => rfl
  have hset : maskOf w.bits ||| U32_ATTR_ACTION = maskOf [(U32_ATTR_DIVISOR, w.divisor.isSome), (U32_ATTR_SELECTOR, w.marked),
      (U32_ATTR_MARK, w.mark.isSome), (U32_ATTR_HASH, w.hash.isSome), (U32_ATTR_CLASSID, w.classid.isSome),
      (U32_ATTR_LINK, w.link.isSome), (U32_ATTR_ACTION, true), (U32_ATTR_POLICE, false), (U32_ATTR_PCNT, false),
      (U32_ATTR_INDEV, false)] :=
    maskOf_set [_, _, _, _, _, _] _ U32_ATTR_ACTION (!w.acts.isEmpty)
  unfold Want.bits at hset ⊢
  rw [hset, hsome]

/-- a setter of a value of its own -/
theorem Want.Ok.asks_other {w w' : Want modules} (h : w.Ok) {s : Setter modules} (hsel : w'.sel = w.sel)
    (hmarked : w'.marked = w.marked) (hmark : w'.mark = w.mark) (hacts : w'.acts = w.acts ++ s.acts) (hstores : s.stores = false)
    (hmarks : s.marks = false) : Asks w s w' := by
  refine ⟨h.other hsel hmarked hmark, ?_, ?_, hacts⟩
  · rw [hmarked, hmarks, Bool.or_false]
  · rw [hsel, hstores, hmarks, Bool.or_false, Bool.or_false]

/-- a setter of the selector that does not mark it, -/
theorem Want.Ok.asks_stored {w : Want modules} (h : w.Ok) {s : Setter modules} {sel : List UInt8}
    (hsame : SameKeys (u32SelectorAlloc w.toU32) sel) (hacts : s.acts = []) (hstores : s.stores = true) (hmarks : s.marks = false) :
    Asks w s { w with sel := some sel } := by
  refine ⟨h.stored hsame id, ?_, ?_, ?_⟩
  · rw [hmarks, Bool.or_false]
  · rw [hstores, Bool.or_true, Bool.true_or]
    rfl
  · rw [hacts, List.append_nil]

/-- and one that does -/
theorem Want.Ok.asks_marked {w : Want modules} {s : Setter modules} {sel : List UInt8}
    (hok : Want.Ok { w with sel := some sel, marked := true }) (hacts : s.acts = []) (hmarks : s.marks = true) :
    Asks w s { w with sel := some sel, marked := true } := by
  refine ⟨hok, ?_, ?_, ?_⟩
  · rw [hmarks, Bool.or_true]
  · rw [hmarks, Bool.or_true]
    rfl
  · rw [hacts, List.append_nil]

/-- **What a setter adds** to what was asked for -/
theorem setter_asks {w : Want modules} (h : w.Ok) (s : Setter modules) (hroom : w.acts.length ≤ TCA_ACT_MAX_PRIO) :
    ∃ w' err, s.apply w.toU32 = some (w'.toU32, err) ∧ Asks w s w' := by
  cases s with
  | classid v =>
    have happly : Setter.apply w.toU32 (.classid v) =
        some ({ w.toU32 with cuClassid := v, cuMask := maskOf w.bits ||| U32_ATTR_CLASSID }, 0) := rfl
    rw [mask_classid w v] at happly
    exact ⟨{ w with classid := some v }, 0, happly, h.asks_other rfl rfl rfl (List.append_nil _).symm rfl rfl⟩
  | divisor v =>
    have happly : Setter.apply w.toU32 (.divisor v) =
        some ({ w.toU32 with cuDivisor := v, cuMask := maskOf w.bits ||| U32_ATTR_DIVISOR }, 0) := rfl
    rw [mask_divisor w v] at happly
    exact ⟨{ w with divisor := some v }, 0, happly, h.asks_other rfl rfl rfl (List.append_nil _).symm rfl rfl⟩
  | link v =>
    have happly : Setter.apply w.toU32 (.link v) =
        some ({ w.toU32 with cuLink := v, cuMask := maskOf w.bits ||| U32_ATTR_LINK }, 0) := rfl
    rw [mask_link w v] at happly
    exact ⟨{ w with link := some v }, 0, happly, h.asks_other rfl rfl rfl (List.append_nil _).symm rfl rfl⟩
  | hashtable v =>
    have happly : Setter.apply w.toU32 (.hashtable v) =
        some ({ w.toU32 with cuHash := v, cuMask := maskOf w.bits ||| U32_ATTR_HASH }, 0) := rfl
    rw [mask_hash w v] at happly
    exact ⟨{ w with hash := some v }, 0, happly, h.asks_other rfl rfl rfl (List.append_nil _).symm rfl rfl⟩
  | hashmask hashmask offset =>
    obtain ⟨sel, hstore, hsame⟩ := h.does (does_storeHashmask hashmask offset)
    refine ⟨{ w with sel := some sel }, 0, ?_, h.asks_stored hsame rfl rfl rfl⟩
    rw [Setter.apply, rtnlU32SetHashmask, hstore]
    rfl
  | selector offoff offmask offshift off flags =>
    obtain ⟨sel, hstore, hsame⟩ := h.does (does_storeOffsets offoff offmask offshift off flags)
    refine ⟨{ w with sel := some sel }, 0, ?_, h.asks_stored hsame rfl rfl rfl⟩
    rw [Setter.apply, rtnlU32SetSelector, hstore]
    rfl
  | terminal =>
    obtain ⟨sel, hstore, hsame⟩ := h.does (does_orFlags TC_U32_TERMINAL)
    refine ⟨{ w with sel := some sel }, 0, ?_, h.asks_stored hsame rfl rfl rfl⟩
    rw [Setter.apply, rtnlU32SetClsTerminal, hstore]
    rfl
  | flags v =>
    obtain ⟨sel, hstore, hsame⟩ := h.does (does_orFlags (UInt8.ofBitVec (v.setWidth 8)))
    have happly : Setter.apply w.toU32 (.flags v) =
        some ({ w.toU32 with cuSelector := some sel, cuMask := maskOf w.bits ||| U32_ATTR_SELECTOR }, 0) := by
      rw [Setter.apply, rtnlU32SetFlags, hstore]
      rfl
    rw [mask_selector w sel] at happly
    exact ⟨{ w with sel := some sel, marked := true }, 0, happly, Want.Ok.asks_marked (h.stored hsame fun _ => rfl) rfl rfl⟩
  | key val mask off offmask =>
    rcases add_key_done h.inv val mask off offmask with ⟨hfull, hadd⟩ | ⟨sel, happended, hadd⟩
    · -- a selector that is full has keys, so it is marked already
      have hcount : nkeysOf (u32SelectorAlloc w.toU32) = 255 := congrArg UInt8.toNat hfull
      have hmarked := h.counted (by omega)
      have hsame : ({ w with sel := some (u32SelectorAlloc w.toU32), marked := true } : Want modules) =
          { w with sel := some (u32SelectorAlloc w.toU32) } := by rw [← hmarked]
      have hok : Want.Ok { w with sel := some (u32SelectorAlloc w.toU32), marked := true } :=
        h.stored ⟨rfl, rfl, fun _ _ => rfl⟩ fun _ => rfl
      refine ⟨{ w with sel := some (u32SelectorAlloc w.toU32), marked := true }, -NLE_NOMEM, ?_,
        Want.Ok.asks_marked hok rfl rfl⟩
      rw [Setter.apply, hadd, hsame]
      rfl
    · have happly : Setter.apply w.toU32 (.key val mask off offmask) =
          some ({ w.toU32 with cuSelector := some sel, cuMask := maskOf w.bits ||| U32_ATTR_SELECTOR }, 0) := hadd
      have hok : Want.Ok { w with sel := some sel, marked := true } := by
        refine ⟨fun s hs => ?_, fun _ => rfl, fun _ => rfl, h.mark⟩
        obtain rfl := Option.some.inj hs
        rw [happended.length, happended.nkeys, keyOff_succ, h.alloc]
        rfl
      rw [mask_selector w sel] at happly
      exact ⟨{ w with sel := some sel, marked := true }, 0, happly, Want.Ok.asks_marked hok rfl rfl⟩
  | mark val mask =>
    have hsize : (u32MarkAlloc w.toU32).length = SIZEOF_MARK := by
      have hcases : u32MarkAlloc w.toU32 = w.mark.getD (nlDataAlloc none SIZEOF_MARK) := rfl
      rw [hcases]
      cases hmark : w.mark with
      | none => exact List.length_replicate
      | some mark => exact h.mark mark hmark
    obtain ⟨mark, hstore, hlen⟩ := storeMark_done val mask hsize.ge
    have happly : Setter.apply w.toU32 (.mark val mask) =
        some ({ w.toU32 with cuMark := some mark, cuMask := maskOf w.bits ||| U32_ATTR_MARK }, 0) := by
      rw [Setter.apply, rtnlU32AddMark, hstore]
      rfl
    have hok : Want.Ok { w with mark := some mark } := by
      refine ⟨h.exact, h.marked, h.counted, fun m hm => ?_⟩
      obtain rfl := Option.some.inj hm
      exact hlen.trans hsize
    rw [mask_mark w mark] at happly
    refine ⟨{ w with mark := some mark }, 0, happly, hok, (Bool.or_false _).symm, ?_, (List.append_nil _).symm⟩
    show w.sel.isSome = (w.sel.isSome || false || false)
    rw [Bool.or_false, Bool.or_false]
  | action act =>
    have happend : rtnlActAppend w.acts [act] = .ok (w.acts ++ [act]) := by
      unfold rtnlActAppend
      by_cases hnil : w.acts = []
      · rw [if_pos hnil, hnil, List.nil_append]
      · rw [if_neg hnil, if_neg (not_lt.2 hroom)]
    have happly : rtnlU32AddAction w.toU32 act =
        ({ w.toU32 with cuMask := maskOf w.bits ||| U32_ATTR_ACTION, cuAct := w.acts ++ [act] }, 0) := by
      unfold rtnlU32AddAction
      have hacts : w.toU32.cuAct = w.acts := rfl
      rw [hacts, happend]
      rfl
    rw [mask_action w act] at happly
    refine ⟨{ w with acts := w.acts ++ [act] }, 0, ?_, h.asks_other rfl rfl rfl rfl rfl rfl⟩
    rw [Setter.apply, happly]
    rfl

/-! ## Building -/

/-- a fresh classifier and calls of setters, whatever they return -/
def build (setters : List (Setter modules)) : Option (RtnlU32 modules) :=
  setters.foldlM (fun u s => (s.apply u).map Prod.fst) (freshU32 modules)

/-- what the setters asked for -/
structure BuiltAs (setters : List (Setter modules)) (w : Want modules) : Prop where
  made : build setters = some w.toU32
  ok : w.Ok
  marked : w.marked = setters.any Setter.marks
  sel : w.sel.isSome = setters.any fun s => s.stores || s.marks
  acts : w.acts = setters.flatMap Setter.acts

/-- **Classifiers that were built** -/
theorem built (setters : List (Setter modules)) (hlen : (setters.flatMap Setter.acts).length ≤ TCA_ACT_MAX_PRIO) :
    ∃ w, BuiltAs setters w := by
  induction setters using List.reverseRecOn with
  | nil => exact ⟨noWant modules, congrArg some noWant_fresh.symm, noWant_ok, rfl, rfl, rfl⟩
  | append_singleton setters s ih =>
    rw [List.flatMap_append, List.length_append] at hlen
    obtain ⟨w, hw⟩ := ih (by omega)
    obtain ⟨w', err, happly, hasks⟩ := setter_asks hw.ok s (by rw [hw.acts]; omega)
    refine ⟨w', ?_, hasks.ok, ?_, ?_, ?_⟩
    · have hbuild := hw.made
      unfold build at hbuild ⊢
      rw [List.foldlM_append, hbuild, Option.bind_eq_bind, Option.bind_some, List.foldlM_cons, happly]
      rfl
    · rw [hasks.marked, hw.marked, List.any_append, List.any_cons, List.any_nil, Bool.or_false]
    · rw [hasks.sel, hw.sel, List.any_append, List.any_cons, List.any_nil, Bool.or_false, Bool.or_assoc]
    · rw [hasks.acts, hw.acts, List.flatMap_append, List.flatMap_cons, List.flatMap_nil, List.append_nil]

/-! ## The message -/

/-- the nests of the actions -/
def actNests (w : Want modules) : List Leaf := orderedNests (w.acts.map fun act => (content act).getD []) 0

/-- what is sent of the selector -/
def Want.sentSel (w : Want modules) : Option (List UInt8) := if w.marked then w.sel else none

/-- what is written of it -/
def fields (w : Want modules) : FieldList :=
  [(TCA_U32_DIVISOR, w.divisor.map fun v => u32Bytes v.toNat), (TCA_U32_HASH, w.hash.map fun v => u32Bytes v.toNat),
    (TCA_U32_CLASSID, w.classid.map fun v => u32Bytes v.toNat), (TCA_U32_LINK, w.link.map fun v => u32Bytes v.toNat),
    (TCA_U32_SEL, w.sentSel), (TCA_U32_MARK, w.mark),
    (32768 + TCA_U32_ACT, if w.acts = [] then none else some (encLeaves (actNests w)))]

theorem there_eq (w : Want modules) {bit : BitVec 32} {flag : Bool} (h : (bit, flag) ∈ w.bits) {α : Type} (x : α) :
    there w.toU32 bit x = if flag then some x else none := by
  have hiff := maskOf_has w.bits_separate h
  unfold there
  cases flag with
  | true => exact if_pos (hiff.2 rfl)
  | false => exact if_neg fun hne => Bool.false_ne_true (hiff.1 hne)

/-- a value that has a bit of its own -/
theorem there_some (w : Want modules) {bit : BitVec 32} {α : Type} {o : Option α} (h : (bit, o.isSome) ∈ w.bits) (d : α) :
    there w.toU32 bit (o.getD d) = o := by
  rw [there_eq w h]
  cases o with
  | none => rfl
  | some x => rfl

theorem front_eq {w : Want modules} (h : w.Ok) : frontFields w.toU32 = (fields w).take 6 := by
  have hdivisor : there w.toU32 U32_ATTR_DIVISOR w.toU32.cuDivisor = w.divisor := there_some w (by simp [Want.bits]) 0
  have hhash : there w.toU32 U32_ATTR_HASH w.toU32.cuHash = w.hash := there_some w (by simp [Want.bits]) 0
  have hclassid : there w.toU32 U32_ATTR_CLASSID w.toU32.cuClassid = w.classid := there_some w (by simp [Want.bits]) 0
  have hlink : there w.toU32 U32_ATTR_LINK w.toU32.cuLink = w.link := there_some w (by simp [Want.bits]) 0
  have hmark : there w.toU32 U32_ATTR_MARK (w.toU32.cuMark.getD []) = w.mark :=
    there_some w (o := w.mark) (by simp [Want.bits]) []
  have hsel : there w.toU32 U32_ATTR_SELECTOR (w.toU32.cuSelector.getD []) = w.sentSel := by
    have hbit : (U32_ATTR_SELECTOR, w.marked) ∈ w.bits := by simp [Want.bits]
    rw [there_eq w hbit, Want.sentSel]
    cases hmarked : w.marked with
    | false => rfl
    | true =>
      obtain ⟨sel, hsel⟩ := Option.isSome_iff_exists.1 (h.marked hmarked)
      show some (w.sel.getD []) = w.sel
      rw [hsel]
      rfl
  rw [frontFields, hdivisor, hhash, hclassid, hlink, hsel, hmark]
  rfl

theorem back_eq (w : Want modules) : leavesOf (backFields w.toU32) = [] := by
  have hbit : (U32_ATTR_POLICE, false) ∈ w.bits ∧ (U32_ATTR_INDEV, false) ∈ w.bits := by simp [Want.bits]
  have hpolice : there w.toU32 U32_ATTR_POLICE (w.toU32.cuPolice.getD []) = none := there_eq w hbit.1 _
  have hindev : there w.toU32 U32_ATTR_INDEV w.toU32.cuIndev = none := there_eq w hbit.2 _
  rw [backFields, hpolice, hindev]
  rfl

/-- actions of which each has a kind, and can be written -/
structure Want.Acts (w : Want modules) : Prop where
  few : w.acts.length < TCA_ACT_MAX_PRIO
  kind : ∀ act ∈ w.acts, act.kind.isSome = true
  writable : ∀ act ∈ w.acts, Writable act

theorem Want.Acts.contents {w : Want modules} (h : w.Acts) : Contents w.acts (w.acts.map fun act => (content act).getD []) :=
  contents_of_writable h.kind h.writable

theorem Want.Acts.short {w : Want modules} (h : w.Acts) : 4 + (encLeaves (actNests w)).length ≤ 65535 := by
  have hshort := need_short h.few
  unfold need at hshort
  unfold actNests
  omega

theorem Want.Acts.nests_nil {w : Want modules} (h : w.Acts) : actNests w = [] ↔ w.acts = [] := by
  have hlen := orderedNests_length (fun c hc => (h.contents.mem c hc).2) 0
  rw [h.contents.length] at hlen
  unfold actNests
  rw [← List.length_eq_zero_iff, hlen, List.length_eq_zero_iff]

theorem sendable {w : Want modules} (hok : w.Ok) (hacts : w.Acts) : Sendable u32Policy (fields w) := by
  have hshort := hacts.short
  refine Sendable.cons (by decide) (sends_u32 rfl _) (Sendable.cons (by decide) (sends_u32 rfl _) (Sendable.cons (by decide)
    (sends_u32 rfl _) (Sendable.cons (by decide) (sends_u32 rfl _) (Sendable.cons (by decide) ?sel (Sendable.cons (by decide)
    (sends_struct (n := SIZEOF_MARK) rfl (by decide) hok.mark) (Sendable.cons (by decide) ?acts (Sendable.nil _)))))))
  case sel =>
    refine sends_min rfl (fun h => by cases h) fun sel hsel => ?_
    have hsome : sel ∈ w.sel := by
      unfold Want.sentSel at hsel
      split_ifs at hsel with hmarked
      · exact hsel
      · cases hsel
    have hexact := hok.exact sel hsome
    have hlt := (memOf sel SEL_NKEYS).toNat_lt
    unfold keyOff nkeysOf SIZEOF_KEY SIZEOF_SEL at hexact
    refine ⟨by omega, ?_⟩
    show 16 ≤ sel.length
    omega
  case acts =>
    refine sends_any rfl fun q hq => ?_
    split_ifs at hq with hnil
    · cases hq
    · obtain rfl := Option.some.inj hq
      exact hshort

/-- **What is written** -/
theorem fill_puts {w : Want modules} (hok : w.Ok) (hacts : w.Acts) : Puts (u32MsgFill w.toU32) (leavesOf (fields w)) 12 := by
  have hsend := sendable hok hacts
  have hshort := hacts.short
  have hbit : w.toU32.cuMask &&& U32_ATTR_ACTION ≠ 0 ↔ (!w.acts.isEmpty) = true :=
    maskOf_has w.bits_separate (by simp [Want.bits])
  have hactions : Puts (fillActions w.toU32) (leavesOf ((fields w).drop 6)) 12 := by
    by_cases hnil : w.acts = []
    · have hfields : leavesOf ((fields w).drop 6) = [] := by
        show leavesOf [(_, if w.acts = [] then none else _)] = []
        rw [if_pos hnil]
        rfl
      have hfill : fillActions w.toU32 = fun msg => (msg, 0) := by
        funext msg
        rw [fillActions, if_neg]
        rw [hbit, hnil]
        exact Bool.false_ne_true
      rw [hfields, hfill]
      exact puts_nothing 12
    · have hnests : actNests w ≠ [] := fun h => hnil (hacts.nests_nil.1 h)
      have hfields : leavesOf ((fields w).drop 6) = typedNest (nestType TCA_U32_ACT) (actNests w) := by
        have htype : nestType TCA_U32_ACT = 32768 + TCA_U32_ACT := nestType_of_lt (by decide)
        show leavesOf [(_, if w.acts = [] then none else _)] = _
        rw [if_neg hnil, typedNest, if_neg hnests, htype]
        rfl
      have hfill : fillActions w.toU32 = rtnlActFill TCA_U32_ACT w.acts := by
        funext msg
        rw [fillActions, if_pos]
        · rfl
        · rw [hbit]
          cases hcases : w.acts with
          | nil => exact absurd hcases hnil
          | cons act acts => rfl
      rw [hfields, hfill]
      exact (fill_acts_puts hacts.contents.each 0).passNest _ _ hshort
  have hfront : Puts (putAll (-NLE_NOMEM) (leavesOf (frontFields w.toU32))) (leavesOf ((fields w).take 6)) 12 := by
    rw [front_eq hok]
    exact puts_putAll _ (hsend.sub fun f hf => List.mem_of_mem_take hf).wf 12
  have hback : Puts (putAll (-NLE_NOMEM) (leavesOf (backFields w.toU32))) [] 12 := by
    rw [back_eq]
    exact puts_nothing 12
  have hall := hfront.pass (hactions.pass hback)
  rw [List.append_nil, ← leavesOf_append, List.take_append_drop] at hall
  exact hall

/-- an action that cannot be written -/
theorem fill_refuses {w : Want modules} {act : Act modules} (hmem : act ∈ w.acts) (h : ¬ Writable act) :
    Refuses (u32MsgFill w.toU32) := by
  have hcontent : content act = none := by
    unfold Writable at h
    rwa [Option.not_isSome_iff_eq_none] at h
  have hbit : w.toU32.cuMask &&& U32_ATTR_ACTION ≠ 0 := by
    have hthere : (U32_ATTR_ACTION, !w.acts.isEmpty) ∈ w.bits := by simp [Want.bits]
    refine (maskOf_has w.bits_separate hthere).2 ?_
    cases hcases : w.acts with
    | nil =>
      rw [hcases] at hmem
      exact absurd hmem List.not_mem_nil
    | cons act acts => rfl
  have hfill : fillActions w.toU32 = rtnlActFill TCA_U32_ACT w.acts := by
    funext msg
    exact if_pos hbit
  have hacts : Refuses (fillActions w.toU32) := by
    rw [hfill]
    exact Refuses.passNest (by decide : -NLE_MSGSIZE < 0) _ (fill_acts_refuses hmem hcontent 0)
  exact (hacts.before _).after _

/-- the bytes that were put behind a message -/
def written (old msg : NlMsg) : List UInt8 := readBytes msg.buf old.nlmsgLen (msg.nlmsgLen - old.nlmsgLen)

omit [HostOrder] in
theorem written_of_wrote {m m' : NlMsg} {bs : List UInt8} (h : Wrote m m' bs) : written m m' = bs := by
  have hlen := h.len
  have hsub : m'.nlmsgLen - m.nlmsgLen = bs.length := by omega
  rw [written, hsub]
  exact h.seg.readBytes

/-! ## Reading it back -/

/-- what comes out: no selector that was not marked, and the actions that were read -/
def Want.sent (w : Want modules) (got : List (Act modules)) : Want modules := { w with sel := w.sentSel, acts := got }

/-- the index of the attributes in the options -/
theorem parse_options {w : Want modules} (hok : w.Ok) (hacts : w.Acts) :
    ∃ tb, tcaParse TCA_U32_MAX (some (encLeaves (leavesOf (fields w)))) u32Policy = (0, tb) ∧
      Indexes (memOf (encLeaves (leavesOf (fields w)))) TCA_U32_MAX (leavesOf (fields w)) tb := by
  have hsend := sendable hok hacts
  have hlong := hsend.length_le
  have hmany : (fields w).length = 7 := rfl
  obtain ⟨tb, hparse, hidx⟩ := parseBytes_fields TCA_U32_MAX hsend (by omega)
  refine ⟨tb, ?_, hidx⟩
  rw [tcaParse_some]
  exact hparse

theorem fields_types (w : Want modules) : (fields w).map (fun f => f.1 % 16384) = [4, 2, 1, 3, 5, 10, 7] := by
  have hact : (32768 + TCA_U32_ACT) % 16384 = 7 := by decide
  show [4, 2, 1, 3, 5, 10, (32768 + TCA_U32_ACT) % 16384] = _
  rw [hact]

theorem fields_distinct (w : Want modules) : Distinct (fields w) := by
  unfold Distinct
  rw [fields_types]
  decide

theorem fields_other (w : Want modules) {t : ℕ} (h : t ∉ [4, 2, 1, 3, 5, 10, 7]) : ∀ f ∈ fields w, f.1 % 16384 ≠ t := by
  intro f hf heq
  have hmem : f.1 % 16384 ∈ (fields w).map fun f => f.1 % 16384 := List.mem_map_of_mem hf
  rw [fields_types, heq] at hmem
  exact h hmem

/-- the payload of the attribute with the actions -/
def actField (w : Want modules) : Option (List UInt8) := if w.acts = [] then none else some (encLeaves (actNests w))

/-- the index leads to what was written -/
structure Shows (buf : Mem) (tb : Index) (w : Want modules) : Prop where
  divisor : Shown buf tb TCA_U32_DIVISOR (w.divisor.map fun v => u32Bytes v.toNat)
  hash : Shown buf tb TCA_U32_HASH (w.hash.map fun v => u32Bytes v.toNat)
  classid : Shown buf tb TCA_U32_CLASSID (w.classid.map fun v => u32Bytes v.toNat)
  link : Shown buf tb TCA_U32_LINK (w.link.map fun v => u32Bytes v.toNat)
  sel : Shown buf tb TCA_U32_SEL w.sentSel
  mark : Shown buf tb TCA_U32_MARK w.mark
  act : Shown buf tb TCA_U32_ACT (actField w)
  pcnt : tb TCA_U32_PCNT = none
  police : tb TCA_U32_POLICE = none
  indev : tb TCA_U32_INDEV = none

theorem shows_of_indexes {w : Want modules} {buf : Mem} {tb : Index}
    (h : Indexes buf TCA_U32_MAX (leavesOf (fields w)) tb) : Shows buf tb w := by
  have hd := fields_distinct w
  have hmax : TCA_U32_MAX < 16384 := by decide
  have hact := shown_of_indexes h hd (t := 32768 + TCA_U32_ACT) (p := actField w) (by simp [fields, actField]) (by decide)
  have htype : (32768 + TCA_U32_ACT) % 16384 = TCA_U32_ACT := by decide
  rw [htype] at hact
  exact {
    divisor := shown_plain h hd hmax (by simp [fields]) (by decide)
    hash := shown_plain h hd hmax (by simp [fields]) (by decide)
    classid := shown_plain h hd hmax (by simp [fields]) (by decide)
    link := shown_plain h hd hmax (by simp [fields]) (by decide)
    sel := shown_plain h hd hmax (by simp [fields]) (by decide)
    mark := shown_plain h hd hmax (by simp [fields]) (by decide)
    act := hact
    pcnt := none_of_indexes h (by decide) (fields_other w (by decide))
    police := none_of_indexes h (by decide) (fields_other w (by decide))
    indev := none_of_indexes h (by decide) (fields_other w (by decide)) }

theorem Want.Ok.sentSel_isSome {w : Want modules} (h : w.Ok) : w.sentSel.isSome = w.marked := by
  unfold Want.sentSel
  cases hmarked : w.marked with
  | false => rfl
  | true => exact h.marked hmarked

theorem actField_isSome {w : Want modules} {got : List (Act modules)} (h : got.length = w.acts.length) :
    (actField w).isSome = !got.isEmpty := by
  unfold actField
  cases hacts : w.acts with
  | nil =>
    rw [hacts] at h
    rw [List.eq_nil_of_length_eq_zero h]
    rfl
  | cons act acts =>
    rw [hacts] at h
    cases got with
    | nil => cases h
    | cons act' got => rfl

theorem Shows.bits {w : Want modules} (hok : w.Ok) {buf : Mem} {tb : Index} (h : Shows buf tb w) {got : List (Act modules)}
    (hgot : got.length = w.acts.length) : parsedBits tb = (w.sent got).bits := by
  have hdivisor := h.divisor.isSome
  have hhash := h.hash.isSome
  have hclassid := h.classid.isSome
  have hlink := h.link.isSome
  rw [Option.isSome_map] at hdivisor hhash hclassid hlink
  rw [parsedBits, hdivisor, h.sel.isSome, hok.sentSel_isSome, h.mark.isSome, hhash, hclassid, hlink, h.act.isSome,
    actField_isSome hgot, h.police, h.pcnt, h.indev]
  rfl

/-- **What is taken out of the index** -/
theorem Shows.taken {w : Want modules} (hok : w.Ok) {buf : Mem} {tb : Index} (h : Shows buf tb w) {got : List (Act modules)}
    (hgot : got.length = w.acts.length) : takenU32 buf tb (freshU32 modules) got = (w.sent got).toU32 := by
  have hsel : blob buf tb TCA_U32_SEL = w.sentSel := h.sel.bytes
  have hmark : blob buf tb TCA_U32_MARK = w.mark := h.mark.bytes
  have hpcnt : blob buf tb TCA_U32_PCNT = none := by rw [blob, h.pcnt]; rfl
  have hpolice : blob buf tb TCA_U32_POLICE = none := by rw [blob, h.police]; rfl
  unfold takenU32
  rw [h.divisor.u32, h.hash.u32, h.classid.u32, h.link.u32, hsel, hmark, hpcnt, hpolice, h.indev, h.bits hok hgot]
  show RtnlU32.mk _ _ _ _ _ (w.sentSel.or none) (w.mark.or none) _ _ _ (0 ||| _) = _
  rw [Option.or_none, Option.or_none, BitVec.ofNat_eq_ofNat, BitVec.zero_or]
  rfl

/-- the actions in the options -/
theorem parse_actions {w : Want modules} (hacts : w.Acts) {buf : Mem} {tb : Index} (h : Shows buf tb w) :
    ∃ got : List (Act modules), parseActs buf [] (tb TCA_U32_ACT) = .ok got ∧ got.map heard = w.acts.map said := by
  have hshown := h.act
  unfold actField at hshown
  by_cases hnil : w.acts = []
  · rw [if_pos hnil] at hshown
    have hnone : tb TCA_U32_ACT = none := hshown
    rw [hnone, hnil]
    exact ⟨[], rfl, rfl⟩
  · rw [if_neg hnil] at hshown
    obtain ⟨pos, type, hpos, hat⟩ := hshown
    obtain ⟨got, hparse, hsame⟩ := parse_nests hacts.contents hat hacts.short
    rw [List.take_of_length_le (Nat.le_sub_one_of_lt hacts.few)] at hsame
    rw [hpos]
    exact ⟨got, hparse, hsame⟩

/-- the parser, if nothing is wrong -/
theorem parser_ok {opts : Option (List UInt8)} {u : RtnlU32 modules} {tb : Index} {acts : List (Act modules)}
    (hparse : tcaParse TCA_U32_MAX opts u32Policy = (0, tb))
    (hacts : parseActs (optBuf opts) u.cuAct (tb TCA_U32_ACT) = .ok acts) (hpcnt : pcntError (optBuf opts) tb = 0) :
    u32MsgParser opts u = .ok (takenU32 (optBuf opts) tb u acts) := by
  have hnot : ¬ pcntError (optBuf opts) tb ≠ 0 := not_not.2 hpcnt
  unfold u32MsgParser
  rw [hparse]
  dsimp only
  rw [if_neg (lt_irrefl (0 : ℤ)), hacts]
  dsimp only
  rw [if_neg hnot]

/-- **What comes out of a message**: what was put in, but for a selector that was not marked. -/
theorem filled_then_parsed {w : Want modules} (hok : w.Ok) (hacts : w.Acts) {m : NlMsg} (hm : Tidy m)
    (hroom : Room m ((encLeaves (leavesOf (fields w))).length + 12)) :
    ∃ m' got, u32MsgFill w.toU32 m = (m', 0) ∧
      u32MsgParser (some (written m m')) (freshU32 modules) = .ok (w.sent got).toU32 ∧ got.map heard = w.acts.map said := by
  obtain ⟨m', hfill, hw⟩ := fill_puts hok hacts m hm hroom
  obtain ⟨tb, hparse, hidx⟩ := parse_options hok hacts
  have hshows := shows_of_indexes hidx
  obtain ⟨got, hgot, hsame⟩ := parse_actions hacts hshows
  have hlen : got.length = w.acts.length := by
    have := congrArg List.length hsame
    rwa [List.length_map, List.length_map] at this
  refine ⟨m', got, hfill, ?_, hsame⟩
  rw [written_of_wrote hw]
  generalize encLeaves (leavesOf (fields w)) = bs at hparse hshows hgot
  have hpcnt : pcntError (optBuf (some bs)) tb = 0 := by
    unfold pcntError blob
    rw [hshows.pcnt]
    rfl
  have htaken := hshows.taken hok hlen
  have hparser := parser_ok (u := freshU32 modules) hparse hgot hpcnt
  exact hparser.trans (congrArg Except.ok htaken)

/-! ## The round trip -/

/-- the same in all that a caller can set; of an action the kind and the options are sent -/
structure SameU32 (u v : RtnlU32 modules) : Prop where
  divisor : v.cuDivisor = u.cuDivisor
  hash : v.cuHash = u.cuHash
  classid : v.cuClassid = u.cuClassid
  link : v.cuLink = u.cuLink
  selector : v.cuSelector = u.cuSelector
  mark : v.cuMark = u.cuMark
  acts : v.cuAct.map heard = u.cuAct.map said
  mask : v.cuMask = u.cuMask

/-- bytes that are enough for the options -/
def enough : ℕ := 65536 * 8

/-- the classifier can be written where there is room, and comes back -/
structure Survives (u : RtnlU32 modules) : Prop where
  finite : ∃ m, Tidy m ∧ Room m enough
  comes : ∀ m, Tidy m → Room m enough → ∃ m' v, u32MsgFill u m = (m', 0) ∧
    u32MsgParser (some (written m m')) (freshU32 modules) = .ok v ∧ SameU32 u v

theorem survives_iff {w : Want modules} (hok : w.Ok) (hfew : w.acts.length < TCA_ACT_MAX_PRIO)
    (hkind : ∀ act ∈ w.acts, act.kind.isSome = true) :
    Survives w.toU32 ↔ (w.marked = true ∨ w.sel = none) ∧ ∀ act ∈ w.acts, Writable act := by
  have hroom : w.Acts → ∀ {m : NlMsg}, Room m enough → Room m ((encLeaves (leavesOf (fields w))).length + 12) := by
    intro hacts m hm
    have hlong := (sendable hok hacts).length_le
    have hmany : (fields w).length = 7 := rfl
    exact room_mono hm (by unfold enough; omega)
  constructor
  · intro h
    obtain ⟨m, hm, henough⟩ := h.finite
    obtain ⟨m', v, hfill, hparse, hsame⟩ := h.comes m hm henough
    have hwritable : ∀ act ∈ w.acts, Writable act := by
      intro act hact
      by_contra hnot
      have hneg := fill_refuses hact hnot m
      rw [hfill] at hneg
      exact lt_irrefl _ hneg
    have hacts : w.Acts := ⟨hfew, hkind, hwritable⟩
    obtain ⟨m1, got, hfill1, hparse1, -⟩ := filled_then_parsed hok hacts hm (hroom hacts henough)
    obtain rfl : m1 = m' := congrArg Prod.fst (hfill1.symm.trans hfill)
    obtain rfl : (w.sent got).toU32 = v := Except.ok.inj (hparse1.symm.trans hparse)
    refine ⟨?_, hwritable⟩
    have hsel : w.sentSel = w.sel := hsame.selector
    unfold Want.sentSel at hsel
    cases hmarked : w.marked with
    | true => exact Or.inl rfl
    | false =>
      rw [hmarked] at hsel
      exact Or.inr hsel.symm
  · rintro ⟨hsel, hwritable⟩
    have hacts : w.Acts := ⟨hfew, hkind, hwritable⟩
    refine ⟨⟨⟨600000, 16, 0, 0, 0, 0, fun _ => 0, false⟩, ⟨rfl, by decide, by decide⟩, by unfold enough; dsimp only; omega,
      by unfold enough; dsimp only; omega⟩, fun m hm henough => ?_⟩
    obtain ⟨m', got, hfill, hparse, hsame⟩ := filled_then_parsed hok hacts hm (hroom hacts henough)
    refine ⟨m', _, hfill, hparse, rfl, rfl, rfl, rfl, ?_, rfl, hsame, ?_⟩
    · show w.sentSel = w.sel
      unfold Want.sentSel
      rcases hsel with hmarked | hnone
      · rw [if_pos hmarked]
      · rw [hnone, ite_self]
    · have hempty : got.isEmpty = w.acts.isEmpty := by
        have hlen := congrArg List.length hsame
        rw [List.length_map, List.length_map] at hlen
        rw [Bool.eq_iff_iff, List.isEmpty_iff_length_eq_zero, List.isEmpty_iff_length_eq_zero, hlen]
      show maskOf (w.sent got).bits = maskOf w.bits
      unfold Want.bits Want.sent
      dsimp only
      rw [hempty]

/-- what a classifier that was built needs to come back -/
theorem BuiltAs.survives_iff {setters : List (Setter modules)} {w : Want modules} (hw : BuiltAs setters w)
    (hfew : (setters.flatMap Setter.acts).length < TCA_ACT_MAX_PRIO)
    (hkind : ∀ act ∈ setters.flatMap Setter.acts, act.kind.isSome = true) :
    (∃ u, build setters = some u ∧ Survives u) ↔
      (w.marked = true ∨ w.sel = none) ∧ ∀ act ∈ setters.flatMap Setter.acts, Writable act := by
  have hacts := hw.acts
  rw [← hacts] at hfew hkind ⊢
  rw [hw.made]
  simp only [Option.some.injEq, exists_eq_left']
  exact U32.survives_iff hw.ok hfew hkind

/-- **The codec.** A classifier that was built with setters, with fewer than 32 actions of a kind each, comes back from a message
if and only if its actions can be written, and none of the calls stored into the selector, or one of them marked it. -/
theorem u32_codec_iff (setters : List (Setter modules)) (hfew : (setters.flatMap Setter.acts).length < TCA_ACT_MAX_PRIO)
    (hkind : ∀ act ∈ setters.flatMap Setter.acts, act.kind.isSome = true) :
    (∃ u, build setters = some u ∧ Survives u) ↔
      ((∀ s ∈ setters, s.stores = false) ∨ ∃ s ∈ setters, s.marks = true) ∧ ∀ act ∈ setters.flatMap Setter.acts, Writable act := by
  obtain ⟨w, hw⟩ := built setters hfew.le
  rw [hw.survives_iff hfew hkind]
  refine and_congr_left' ?_
  have hmarked : w.marked = true ↔ ∃ s ∈ setters, s.marks = true := by rw [hw.marked, List.any_eq_true]
  rw [or_comm, ← hmarked]
  by_cases hmark : w.marked = true
  · exact iff_of_true (Or.inr hmark) (Or.inr hmark)
  · -- without a mark, a selector is there if something was stored into it
    have hnone : ∀ s ∈ setters, s.marks = false := fun s hs => by
      by_contra hne
      exact hmark (hmarked.2 ⟨s, hs, Bool.eq_true_of_not_eq_false hne⟩)
    refine or_congr_left ?_
    rw [← Option.not_isSome_iff_eq_none, hw.sel, List.any_eq_true]
    constructor
    · intro h s hs
      by_contra hne
      exact h ⟨s, hs, by rw [Bool.eq_true_of_not_eq_false hne, Bool.true_or]⟩
    · rintro h ⟨s, hs, hor⟩
      rw [h s hs, hnone s hs] at hor
      exact Bool.false_ne_true hor

/-- a hash mask, and nothing else -/
def onlyHashmask : List (Setter []) := [.hashmask 0xFF000000 16]

/-- a hash mask, and a key -/
def hashmaskAndKey : List (Setter []) := [.hashmask 0xFF000000 16, .key 1 255 8 0]

end

/-- with a key the hash mask comes along -/
theorem hash_mask_with_key : ∃ u, @build ⟨false⟩ [] (@hashmaskAndKey ⟨false⟩) = some u ∧ @Survives ⟨false⟩ [] u := by
  let order : HostOrder := ⟨false⟩
  have hfew : (hashmaskAndKey.flatMap Setter.acts).length < TCA_ACT_MAX_PRIO := by decide
  have hmarks : ∃ s ∈ hashmaskAndKey, s.marks = true := ⟨_, List.mem_cons_of_mem _ List.mem_cons_self, rfl⟩
  exact (u32_codec_iff hashmaskAndKey hfew fun act h => absurd h List.not_mem_nil).2
    ⟨Or.inr hmarks, fun act h => absurd h List.not_mem_nil⟩

/-- **A hash mask is lost**, when no call marks the selector. -/
theorem hash_mask_is_lost : ¬ ∃ u, @build ⟨false⟩ [] (@onlyHashmask ⟨false⟩) = some u ∧ @Survives ⟨false⟩ [] u := by
  let order : HostOrder := ⟨false⟩
  have hfew : (onlyHashmask.flatMap Setter.acts).length < TCA_ACT_MAX_PRIO := by decide
  obtain ⟨w, hw⟩ := built onlyHashmask hfew.le
  rw [hw.survives_iff hfew fun act h => absurd h List.not_mem_nil]
  rintro ⟨hmarked | hnone, -⟩
  · rw [hw.marked] at hmarked
    exact Bool.false_ne_true hmarked
  · have hsel := hw.sel
    rw [hnone] at hsel
    exact Bool.false_ne_true hsel

end Libnl.U32
