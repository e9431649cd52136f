/-
The grammar of DECnet addresses (`dnet_pton` in `lib/addr.c`).

A text is an area, a point or a comma, and a node. Both numbers are accumulated in 16 bits, and only then compared with
their limits: a number that is too large may wrap into the range. What follows the digits of the node is not looked at.

- `dnetNum_eq`: a run of digits is counted, and its value is that of the digits modulo `2 ^ 16`.
- `dnetPton_parts`, `exists_parts`: what is made of a text that has the parts; a text that is accepted has them.
- `dnet_grammar_iff`: the texts on which the grammar is followed.
- `dnet_wraps`: an area of 65537 is one of 1.
-/
import Mathlib.Tactic
import Libnl.Route.AddrParse

namespace Libnl.DnetText

open AddrParse

/-! ## The grammar -/

/-- the value of decimal digits -/
def decimal (digits : List Char) : ℕ := digits.foldl (fun v c => v * 10 + (c.toNat - 48)) 0

/-- the parts of a text: the digits of the area, the separator, the digits of the node, and what follows them -/
structure DnetParts (src area : List Char) (sep : Char) (node rest : List Char) : Prop where
  text : src = area ++ sep :: (node ++ rest)
  areaDigits : ∀ c ∈ area, c.isDigit = true
  area_ne : area ≠ []
  separates : sep = '.' ∨ sep = ','
  nodeDigits : ∀ c ∈ node, c.isDigit = true
  node_ne : node ≠ []
  stops : ∀ c ∈ rest.head?, c.isDigit = false

/-- an area and a node within their limits, and nothing after them -/
structure IsDnet (src area : List Char) (sep : Char) (node : List Char) : Prop where
  parts : DnetParts src area sep node []
  area_le : decimal area ≤ 63
  node_le : decimal node ≤ 1023

/-- 16 bits in the order of DECnet -/
def dnetBytes (v : ℕ) : List UInt8 := [UInt8.ofNat (v % 256), UInt8.ofNat (v / 256)]

/-- `dnet_pton` accepts the texts of the grammar, and stores what they say -/
structure FollowsGrammar (src : List Char) : Prop where
  accepts : (dnetPton src).isSome ↔ ∃ area sep node, IsDnet src area sep node
  stores : ∀ bytes, dnetPton src = some bytes →
    ∃ area sep node, IsDnet src area sep node ∧ bytes = dnetBytes (decimal area <<< 10 ||| decimal node)

/-! ## Numbers -/

theorem decimal_snoc (ds : List Char) (c : Char) : decimal (ds ++ [c]) = decimal ds * 10 + (c.toNat - 48) := by
  rw [decimal, List.foldl_append]
  rfl

theorem foldl_mod (ds : List Char) :
    ds.foldl (fun dst c => (dst * 10 % 2 ^ 16 + (c.toNat - 48)) % 2 ^ 16) 0 = decimal ds % 2 ^ 16 := by
  induction ds using List.reverseRecOn with
  | nil => rfl
  | append_singleton ds c ih =>
    rw [List.foldl_append, ih, decimal_snoc, List.foldl_cons, List.foldl_nil]
    omega

theorem takeWhile_digits {ds r : List Char} (hds : ∀ c ∈ ds, c.isDigit = true) (hr : ∀ c ∈ r.head?, c.isDigit = false) :
    (ds ++ r).takeWhile Char.isDigit = ds := by
  rw [List.takeWhile_append_of_pos hds]
  cases r with
  | nil => rw [List.takeWhile_nil, List.append_nil]
  | cons c r =>
    rw [List.takeWhile_cons, hr c rfl, if_neg Bool.false_ne_true, List.append_nil]

/-- **A run of digits** -/
theorem dnetNum_eq {ds r : List Char} (hds : ∀ c ∈ ds, c.isDigit = true) (hr : ∀ c ∈ r.head?, c.isDigit = false) :
    dnetNum (ds ++ r) = (ds.length, decimal ds % 2 ^ 16) := by
  rw [dnetNum, takeWhile_digits hds hr, foldl_mod]

/-! ## Texts -/

section
variable {src area node rest : List Char} {sep : Char}

theorem DnetParts.sep_stops (h : DnetParts src area sep node rest) (r : List Char) :
    ∀ c ∈ (sep :: r).head?, c.isDigit = false := by
  intro c hc
  obtain rfl : sep = c := Option.some.inj hc
  rcases h.separates with rfl | rfl
  · decide
  · decide

/-- **A text with the parts** is accepted if the numbers, as far as they are kept, are within the limits. -/
theorem dnetPton_parts (h : DnetParts src area sep node rest) : dnetPton src =
    if decimal area % 2 ^ 16 ≤ 63 ∧ decimal node % 2 ^ 16 ≤ 1023 then
      some (dnetBytes (decimal area % 2 ^ 16 * 1024 + decimal node % 2 ^ 16))
    else none := by
  have harea := dnetNum_eq h.areaDigits (h.sep_stops (node ++ rest))
  have hnode := dnetNum_eq h.nodeDigits h.stops
  have hpos := List.length_pos_iff.2 h.area_ne
  have hpos' := List.length_pos_iff.2 h.node_ne
  have hsep : ¬ (some sep ≠ some '.' ∧ some sep ≠ some ',') := by
    rintro ⟨hpoint, hcomma⟩
    rcases h.separates with rfl | rfl
    · exact hpoint rfl
    · exact hcomma rfl
  rw [dnetPton, h.text, harea]
  dsimp only
  rw [List.drop_left, List.head?_cons, List.tail_cons, hnode]
  dsimp only
  by_cases ha : decimal area % 2 ^ 16 ≤ 63
  · rw [if_neg (not_or.2 ⟨by omega, not_or.2 ⟨by omega, hsep⟩⟩)]
    by_cases hn : decimal node % 2 ^ 16 ≤ 1023
    · rw [if_neg (not_or.2 ⟨by omega, by omega⟩), if_pos ⟨ha, hn⟩]
      rfl
    · rw [if_pos (Or.inr (by omega)), if_neg fun hboth => hn hboth.2]
  · rw [if_pos (Or.inr (Or.inl (by omega))), if_neg fun hboth => ha hboth.1]

theorem exists_digits (s : List Char) : ∃ ds r, s = ds ++ r ∧ (∀ c ∈ ds, c.isDigit = true) ∧
    (∀ c ∈ r.head?, c.isDigit = false) ∧ (dnetNum s).1 = ds.length := by
  refine ⟨s.takeWhile Char.isDigit, s.dropWhile Char.isDigit, List.takeWhile_append_dropWhile.symm,
    fun c hc => List.mem_takeWhile_imp hc, fun c hc => ?_, rfl⟩
  have hhead := List.head?_dropWhile_not Char.isDigit s
  rw [Option.mem_def.1 hc] at hhead
  exact hhead

/-- **A text that is accepted** has the parts. -/
theorem exists_parts (h : (dnetPton src).isSome) : ∃ area sep node rest, DnetParts src area sep node rest := by
  obtain ⟨area, r, rfl, harea, hstops, hcount⟩ := exists_digits src
  rw [dnetPton] at h
  dsimp only at h
  rw [hcount, List.drop_left] at h
  split_ifs at h with hfirst hsecond
  · cases h
  · cases h
  · obtain ⟨hne, -, hsep⟩ := not_or.1 hfirst |>.imp id not_or.1
    cases r with
    | nil => exact absurd ⟨by simp, by simp⟩ hsep
    | cons sep r =>
      obtain ⟨node, rest, rfl, hnode, hrest, hcount'⟩ := exists_digits r
      rw [List.tail_cons, hcount'] at hsecond
      refine ⟨area, sep, node, rest, rfl, harea, fun hnil => hne (by rw [hnil]; rfl), ?_, hnode, fun hnil => ?_, hrest⟩
      · by_contra hno
        obtain ⟨hpoint, hcomma⟩ := not_or.1 hno
        exact hsep ⟨fun heq => hpoint (Option.some.inj heq), fun heq => hcomma (Option.some.inj heq)⟩
      · exact hsecond (Or.inl (by rw [hnil]; rfl))

/-- a text has only one division into parts -/
theorem DnetParts.unique {area' node' rest' : List Char} {sep' : Char} (h : DnetParts src area sep node rest)
    (h' : DnetParts src area' sep' node' rest') : area = area' ∧ sep = sep' ∧ node = node' ∧ rest = rest' := by
  have htext := h.text.symm.trans h'.text
  have harea : area = area' := by
    rw [← takeWhile_digits h.areaDigits (h.sep_stops (node ++ rest)), htext,
      takeWhile_digits h'.areaDigits (h'.sep_stops (node' ++ rest'))]
  rw [harea] at htext
  obtain ⟨hsep, htail⟩ := List.cons.inj (List.append_cancel_left htext)
  have hnode : node = node' := by
    rw [← takeWhile_digits h.nodeDigits h.stops, htail, takeWhile_digits h'.nodeDigits h'.stops]
  rw [hnode] at htail
  exact ⟨harea, hsep, hnode, List.append_cancel_left htail⟩

end

/-! ## Where the grammar is followed -/

theorem IsDnet.bytes {src area node : List Char} {sep : Char} (h : IsDnet src area sep node) :
    dnetPton src = some (dnetBytes (decimal area <<< 10 ||| decimal node)) := by
  have harea := h.area_le
  have hnode := h.node_le
  have hlt : decimal node < 2 ^ 10 := by omega
  have hamod : decimal area % 2 ^ 16 = decimal area := Nat.mod_eq_of_lt (by omega)
  have hnmod : decimal node % 2 ^ 16 = decimal node := Nat.mod_eq_of_lt (by omega)
  rw [dnetPton_parts h.parts, hamod, hnmod, if_pos ⟨harea, hnode⟩, ← Nat.shiftLeft_add_eq_or_of_lt hlt, Nat.shiftLeft_eq]

/-- the numbers of a text, if they are within the limits modulo `2 ^ 16`, are within them, and nothing follows -/
def NothingLost (src : List Char) : Prop :=
  ∀ area sep node rest, DnetParts src area sep node rest → decimal area % 2 ^ 16 ≤ 63 → decimal node % 2 ^ 16 ≤ 1023 →
    decimal area ≤ 63 ∧ decimal node ≤ 1023 ∧ rest = []

theorem FollowsGrammar.nothingLost {src : List Char} (h : FollowsGrammar src) : NothingLost src := by
  intro area sep node rest hparts harea hnode
  have hsome : (dnetPton src).isSome := by
    rw [dnetPton_parts hparts, if_pos ⟨harea, hnode⟩]
    rfl
  obtain ⟨area', sep', node', hdnet⟩ := h.accepts.1 hsome
  obtain ⟨rfl, -, rfl, rfl⟩ := hparts.unique hdnet.parts
  exact ⟨hdnet.area_le, hdnet.node_le, rfl⟩

/-- **The grammar is followed** exactly on the texts where neither number wraps into its range and nothing follows what is
accepted. -/
theorem dnet_grammar_iff (src : List Char) : FollowsGrammar src ↔ NothingLost src := by
  constructor
  · exact FollowsGrammar.nothingLost
  · intro h
    have hdnet : (dnetPton src).isSome → ∃ area sep node, IsDnet src area sep node := by
      intro hsome
      obtain ⟨area, sep, node, rest, hparts⟩ := exists_parts hsome
      rw [dnetPton_parts hparts] at hsome
      split_ifs at hsome with hin
      · obtain ⟨harea, hnode, rfl⟩ := h _ _ _ _ hparts hin.1 hin.2
        exact ⟨area, sep, node, hparts, harea, hnode⟩
      · cases hsome
    refine ⟨⟨hdnet, ?_⟩, fun bytes hbytes => ?_⟩
    · rintro ⟨area, sep, node, hd⟩
      rw [hd.bytes]
      rfl
    · obtain ⟨area, sep, node, hd⟩ := hdnet (Option.isSome_iff_exists.2 ⟨bytes, hbytes⟩)
      exact ⟨area, sep, node, hd, Option.some.inj (hbytes.symm.trans hd.bytes)⟩

/-- **Too large, and not at the end.** The area is 65537, and letters follow the node; this is the address 1.1. -/
theorem dnet_wraps : ¬ FollowsGrammar "65537.1 node".toList := by
  intro h
  have hparts : DnetParts "65537.1 node".toList "65537".toList '.' "1".toList " node".toList :=
    ⟨by decide, by simp, by simp, Or.inl rfl, by simp, by simp, by simp⟩
  obtain ⟨harea, -⟩ := h.nothingLost _ _ _ _ hparts (by decide) (by decide)
  revert harea
  decide

end Libnl.DnetText
