import Pxeos.Restore.MetadataLayout

/-!
# What the parser finds

The rules for the second file, on the lines of a forest: what they find depends on the blocks that a
line stands in, and they come back to the place where they began.
-/

namespace Pxeos.Restore

open Pxeos.Lib

/-! ### What can be found -/

inductive Event where
  | top (name : Str)
  | rootId (value : Str)
  | entry (kind : Section) (name : Str)
  | ownId (kind : Section) (entry value : Str)
  | stray
  deriving DecidableEq

/-- The blocks and the `id`s of a text. -/
abbrev Outline := Forest Str (Option Str)

/-- The section that a block of the group is. -/
def sectionOf (name : Str) : Option Section :=
  if name = "physical_volumes".toList then some .pv else if name = "logical_volumes".toList then
    some .lv else none

def Outline.ids (f : Outline) : List Str := f.leaves.filterMap id

def Outline.allIds (f : Outline) : List Str := f.allLeaves.filterMap id

def strays (f : Outline) : List Event := (Outline.allIds f).map fun _ => .stray

def entryEvents (kind : Section) (name : Str) (f : Outline) : List Event :=
  f.collect (fun v => v.toList.map (.ownId kind name)) fun _ inside => strays inside

def sectionEvents (kind : Section) (f : Outline) : List Event :=
  f.collect (fun v => v.toList.map fun _ => .stray) fun name inside =>
    .entry kind name :: entryEvents kind name inside

def rootEvents (f : Outline) : List Event :=
  f.collect (fun v => v.toList.map .rootId) fun name inside =>
    match sectionOf name with
    | some kind => sectionEvents kind inside
    | none => strays inside

def topEvents (f : Outline) : List Event :=
  f.collect (fun v => v.toList.map fun _ => .stray) fun name inside =>
    .top name :: rootEvents inside

/-- What the rules do with something that they find. -/
def Tally.count (want : Wanted) (t : Tally) : Event → Tally
  | .top name => { t with topCount := t.topCount + 1, topName := some name }
  | .rootId value =>
    { t with bad := t.bad || t.seenRootId, seenRootId := true, rootId := some value }
  | .entry .pv _ => { t with pvCount := t.pvCount + 1 }
  | .entry .lv name => { t with lvCount := t.lvCount + 1, bad := t.bad || !want.seenName name }
  | .ownId .pv name value =>
    { t with bad := t.bad || t.seenPvId || !isPvName name, seenPvId := true, pvId := some value }
  | .ownId .lv name value =>
    if name = [] ∨ value ≠ want.uuid name then { t with bad := true }
    else if name ∈ t.seenLv then { t with bad := true }
    else if value ∈ t.seenLvId then { t with bad := true, seenLv := name :: t.seenLv }
    else { t with
        seenLv := name :: t.seenLv, seenLvId := value :: t.seenLvId, foundLv := t.foundLv + 1 }
  | .stray => { t with bad := true }

/-! ### Places -/

namespace Parser

variable (want : Wanted)

/-- The rules on the items of some lines. -/
def run (p : Parser) (items : List (Item Str (Str × Str))) : Parser := items.foldl (item want) p

lemma run_append (p : Parser) (xs ys : List (Item Str (Str × Str))) :
    p.run want (xs ++ ys) = (p.run want xs).run want ys :=
  List.foldl_append

lemma run_cons (p : Parser) (x : Item Str (Str × Str)) (xs : List (Item Str (Str × Str))) :
    p.run want (x :: xs) = (p.item want x).run want xs := rfl

end Parser

/-- Some events at a place. -/
def found (want : Wanted) (s : Place) (t : Tally) (es : List Event) : Parser :=
  ⟨s, es.foldl (Tally.count want) t⟩

section Places

variable (want : Wanted)

lemma found_append (s : Place) (t : Tally) (xs ys : List Event) :
    found want s t (xs ++ ys) = found want s (xs.foldl (Tally.count want) t) ys := by
  unfold found
  rw [List.foldl_append]

/-- A place where no block is an entry and every `id` is a stray one. -/
inductive Deep : Place → Prop
  | outside {s : Place} (hmarker : s.marker = none) (hentry : s.entry = []) (hdepth : 2 ≤ s.depth) :
    Deep s
  | inside {s : Place} {kind : Section} (hmarker : s.marker = some kind)
      (hsection : s.sectionDepth = 2) (hentry : s.entryDepth = 3)
      (hdepth : 4 ≤ s.depth) : Deep s

/-- The blocks of a forest have names. -/
def Named : Forest Str (Str × Str) → Prop
  | .nil => True
  | .block name inside rest => name ≠ [] ∧ Named inside ∧ Named rest
  | .leaf _ rest => Named rest

lemma Deep.deeper {s : Place} (h : Deep s) : Deep { s with depth := s.depth + 1 } := by
  cases h with
  | outside hmarker hentry hdepth => exact .outside hmarker hentry (by simp; omega)
  | inside hmarker hsection hentry hdepth => exact .inside hmarker hsection hentry (by simp; omega)

lemma Deep.item_opens {s : Place} (h : Deep s) (t : Tally) (name : Str) :
    (⟨s, t⟩ : Parser).item want (.opens name) = ⟨{ s with depth := s.depth + 1 }, t⟩ := by
  have hdepth : 2 ≤ s.depth := by cases h <;> omega
  cases h with
  | outside hmarker hentry _ =>
    simp [Parser.item, Parser.openTop, Parser.openEntry, Parser.leave, hmarker, hentry,
      show s.depth ≠ 0 by omega,
      show s.depth ≠ 1 by omega, show ¬ s.depth + 1 < 0 by omega]
  | inside hmarker hsection hentry hdepth =>
    simp [Parser.item, Parser.openTop, Parser.openEntry, Parser.leave, hmarker, hentry, hsection,
      show s.depth ≠ 0 by omega,
      show s.depth ≠ 1 by omega, show s.depth ≠ 2 by omega, show ¬ s.depth + 1 < 0 by
        omega, show ¬ s.depth + 1 < 3 by omega,
      show ¬ s.depth + 1 < 2 by omega]

lemma Deep.item_closes {s : Place} (h : Deep s) (t : Tally) :
    (⟨{ s with depth := s.depth + 1 }, t⟩ : Parser).item want .closes = ⟨s, t⟩ := by
  obtain ⟨depth, marker, sectionDepth, entry, entryDepth, currentLv⟩ := s
  cases h with
  | outside hmarker hentry hdepth =>
    dsimp only at hmarker hentry hdepth
    subst hmarker hentry
    simp [Parser.item, Parser.leave, show ¬ depth < 0 by omega]
  | inside hmarker hsection hentry hdepth =>
    dsimp only at hmarker hsection hentry hdepth
    subst hmarker hsection hentry
    simp [Parser.item, Parser.leave, show ¬ depth < 0 by omega, show ¬ depth < 3 by omega, show ¬ depth < 2 by omega]

lemma Deep.item_leaf {s : Place} (h : Deep s) (t : Tally) (field : Str × Str) :
    (⟨s, t⟩ : Parser).item want (.leaf field) =
      found want s t ((filledId field).toList.map fun _ => .stray) := by
  have hdepth : s.depth ≠ 1 := by cases h <;> omega
  unfold Parser.item
  dsimp only
  cases filledId field with
  | none => rfl
  | some value =>
    unfold Parser.readId
    dsimp only
    cases h with
    | outside hmarker hentry _ =>
      rw [if_neg hdepth, if_neg (by simp [hmarker]), if_neg (by simp [hmarker])]
      rfl
    | inside hmarker hsection hentry hlarge =>
      rw [if_neg hdepth, if_neg (by omega), if_neg (by omega)]
      rfl

lemma strays_block (name : Str) (inside rest : Outline) :
    strays (.block name inside rest) = strays inside ++ strays rest := by
  simp [strays, Outline.allIds, Forest.allLeaves]

lemma strays_leaf (v : Option Str) (rest : Outline) :
    strays (.leaf v rest) = (v.toList.map fun _ => .stray) ++ strays rest := by
  cases v <;> simp [strays, Outline.allIds, Forest.allLeaves]

/-- A block of which the rules come back to the place, behind its lines. -/
lemma run_block (p : Parser) (name : Str) (inside rest : Forest Str (Str × Str)) :
    p.run want (Forest.block name inside rest).items =
      (((p.item want (.opens name)).run want inside.items).item want .closes).run want
        rest.items := by
  rw [Forest.items, List.cons_append, Parser.run_cons, Parser.run_append, Parser.run_cons]

/-- Behind a deep place there are only stray ones. -/
lemma run_deep (f : Forest Str (Str × Str)) {s : Place} (h : Deep s) (t : Tally) :
    (⟨s, t⟩ : Parser).run want f.items = found want s t (strays (f.map filledId)) := by
  induction f generalizing s t with
  | nil => rfl
  | block name inside rest ihinside ihrest =>
    rw [run_block, h.item_opens, ihinside h.deeper]
    show ((⟨_, _⟩ : Parser).item want .closes).run want rest.items = _
    rw [h.item_closes, ihrest h, Forest.map, strays_block]
    exact (found_append want s t _ _).symm
  | leaf field rest ih =>
    rw [Forest.items, Parser.run_cons, h.item_leaf]
    show (⟨_, _⟩ : Parser).run want rest.items = _
    rw [ih h, Forest.map, strays_leaf]
    exact (found_append want s t _ _).symm

/-- The place in an entry. -/
def inEntry (kind : Section) (name : Str) : Place :=
  { depth := 3, marker := some kind, sectionDepth := 2, entry := name, entryDepth := 3
    currentLv := match kind with
      | .pv => []
      | .lv => name }

/-- The place in a section, outside its entries. -/
def inSection (kind : Section) : Place := { depth := 2, marker := some kind, sectionDepth := 2 }

lemma deep_inEntry (kind : Section) (name : Str) : Deep { inEntry kind name with depth := 4 } :=
  .inside rfl rfl rfl (by simp)

/-- An entry: its own `id`s are those of the entry, all others are stray ones. -/
lemma run_entry (kind : Section) (name : Str) (f : Forest Str (Str × Str)) (t : Tally) :
    (⟨inEntry kind name, t⟩ : Parser).run want f.items = found want (inEntry kind name) t
      (entryEvents kind name (f.map filledId)) := by
  induction f generalizing t with
  | nil => rfl
  | block inner inside rest _ ihrest =>
    have hopens : (⟨inEntry kind name, t⟩ : Parser).item want (.opens inner) =
        ⟨{ inEntry kind name with depth := 4 }, t⟩ := by
      simp [Parser.item, Parser.openTop, Parser.openEntry, Parser.leave, inEntry]
    have hcloses : ∀ t : Tally, (⟨{ inEntry kind name with depth := 4 }, t⟩ : Parser).item want
      .closes = ⟨inEntry kind name, t⟩ := by
      intro t
      simp [Parser.item, Parser.leave, inEntry]
    rw [run_block, hopens, run_deep want inside (deep_inEntry kind name)]
    show ((⟨_, _⟩ : Parser).item want .closes).run want rest.items = _
    rw [hcloses, ihrest, Forest.map]
    exact (found_append want _ t _ _).symm
  | leaf field rest ih =>
    have hleaf : (⟨inEntry kind name, t⟩ : Parser).item want (.leaf field) =
        found want (inEntry kind name) t ((filledId field).toList.map (.ownId kind name)) := by
      unfold Parser.item
      dsimp only
      cases filledId field with
      | none => rfl
      | some value =>
        cases kind with
        | pv => simp [Parser.readId, inEntry, found, Tally.count]
        | lv =>
          simp only [Parser.readId, inEntry, found, Tally.count, Option.toList, List.map_cons, List.map_nil, List.foldl_cons,
            List.foldl_nil]
          by_cases hwrong : name = [] ∨ value ≠ want.uuid name
          · simp [hwrong]
          · by_cases hname : name ∈ t.seenLv
            · simp [hwrong, hname]
            · by_cases hvalue : value ∈ t.seenLvId <;> simp [hwrong, hname, hvalue]
    rw [Forest.items, Parser.run_cons, hleaf]
    show (⟨_, _⟩ : Parser).run want rest.items = _
    rw [ih, Forest.map]
    exact (found_append want _ t _ _).symm

/-- A section: its blocks are entries. -/
lemma run_section (kind : Section) {f : Forest Str (Str × Str)} (hnamed : Named f) (t : Tally) :
    (⟨inSection kind, t⟩ : Parser).run want f.items = found want (inSection kind) t
      (sectionEvents kind (f.map filledId)) := by
  induction f generalizing t with
  | nil => rfl
  | block name inside rest _ ihrest =>
    obtain ⟨hname, -, hrest⟩ := hnamed
    have hopens : (⟨inSection kind, t⟩ : Parser).item want (.opens name) =
        found want (inEntry kind name) t [.entry kind name] := by
      cases kind <;> simp [Parser.item, Parser.openTop, Parser.openEntry, Parser.leave, inSection,
        inEntry, found, Tally.count]
    have hcloses : ∀ t : Tally, (⟨inEntry kind name, t⟩ : Parser).item want .closes = ⟨inSection kind, t⟩ := by
      intro t
      cases kind <;> simp [Parser.item, Parser.leave, inSection, inEntry, hname]
    rw [run_block, hopens]
    show (((⟨_, _⟩ : Parser).run want inside.items).item want .closes).run want rest.items = _
    rw [run_entry]
    show ((⟨_, _⟩ : Parser).item want .closes).run want rest.items = _
    rw [hcloses, ihrest hrest, Forest.map, ← List.foldl_append]
    exact (found_append want _ t _ _).symm
  | leaf field rest ih =>
    have hleaf : (⟨inSection kind, t⟩ : Parser).item want (.leaf field) =
        found want (inSection kind) t ((filledId field).toList.map fun _ => .stray) := by
      unfold Parser.item
      dsimp only
      cases filledId field with
      | none => rfl
      | some value => cases kind <;> simp [Parser.readId, inSection, found, Tally.count]
    rw [Forest.items, Parser.run_cons, hleaf]
    show (⟨_, _⟩ : Parser).run want rest.items = _
    rw [ih hnamed, Forest.map]
    exact (found_append want _ t _ _).symm

/-- The place outside of sections; the rules leave the depth of the last section behind. -/
def outside (depth sectionDepth : ℤ) : Place := { depth := depth, sectionDepth := sectionDepth }

lemma opens_section {name : Str} {kind : Section} (hkind : sectionOf name = some kind) (last : ℤ)
    (t : Tally) :
    (⟨outside 1 last, t⟩ : Parser).item want (.opens name) = ⟨inSection kind, t⟩ := by
  have hentry : (⟨outside 1 last, t⟩ : Parser).openEntry want name =
      ⟨{ outside 1 last with marker := some kind, sectionDepth := 2 }, t⟩ := by
    unfold sectionOf at hkind
    unfold Parser.openEntry
    split at hkind
    · obtain rfl := Option.some.inj hkind
      rw [if_pos ⟨rfl, ‹_›⟩]
      rfl
    · split at hkind
      · obtain rfl := Option.some.inj hkind
        rw [if_neg fun h => absurd h.2 ‹_›, if_pos ⟨rfl, ‹_›⟩]
        rfl
      · cases hkind
  show (((⟨outside 1 last, t⟩ : Parser).openTop name).openEntry want name).leave 1 0 = _
  rw [show (⟨outside 1 last, t⟩ : Parser).openTop name = ⟨outside 1 last, t⟩ from rfl, hentry]
  simp [Parser.leave, inSection, outside]

lemma opens_other {name : Str} (hkind : sectionOf name = none) (last : ℤ) (t : Tally) :
    (⟨outside 1 last, t⟩ : Parser).item want (.opens name) = ⟨outside 2 last, t⟩ := by
  have hentry : (⟨outside 1 last, t⟩ : Parser).openEntry want name = ⟨outside 1 last, t⟩ := by
    unfold sectionOf at hkind
    unfold Parser.openEntry
    split at hkind
    · cases hkind
    · split at hkind
      · cases hkind
      · rw [if_neg fun h => absurd h.2 ‹_›, if_neg fun h => absurd h.2 ‹_›]
        rfl
  show (((⟨outside 1 last, t⟩ : Parser).openTop name).openEntry want name).leave 1 0 = _
  rw [show (⟨outside 1 last, t⟩ : Parser).openTop name = ⟨outside 1 last, t⟩ from rfl, hentry]
  simp [Parser.leave, outside]

/-- The lines of a block of the group, by its name. -/
lemma run_inner (name : Str) {inside : Forest Str (Str × Str)} (hinside : Named inside) (last : ℤ)
    (t : Tally) :
    ∃ last',
      (((⟨outside 1 last, t⟩ : Parser).item want (.opens name)).run want inside.items).item want
        .closes =
      found want (outside 1 last') t (match sectionOf name with
        | some kind => sectionEvents kind (inside.map filledId)
        | none => strays (inside.map filledId)) := by
  cases hkind : sectionOf name with
  | some kind =>
    have hcloses : ∀ t : Tally, (⟨inSection kind, t⟩ : Parser).item want .closes =
        ⟨outside 1 2, t⟩ := by
      intro t
      simp [Parser.item, Parser.leave, inSection, outside]
    refine ⟨2, ?_⟩
    rw [opens_section want hkind, run_section want kind hinside]
    exact hcloses _
  | none =>
    have hcloses : ∀ t : Tally, (⟨outside 2 last, t⟩ : Parser).item want .closes =
        ⟨outside 1 last, t⟩ := by
      intro t
      simp [Parser.item, Parser.leave, outside]
    refine ⟨last, ?_⟩
    rw [opens_other want hkind, run_deep want inside (.outside rfl rfl le_rfl)]
    exact hcloses _

/-- The block of the group: its `id`s are those of the group, its blocks may be sections. -/
lemma run_root {f : Forest Str (Str × Str)} (hnamed : Named f) (last : ℤ) (t : Tally) :
    ∃ last', (⟨outside 1 last, t⟩ : Parser).run want f.items = found want (outside 1 last') t
      (rootEvents (f.map filledId)) := by
  induction f generalizing last t with
  | nil => exact ⟨last, rfl⟩
  | block name inside rest _ ihrest =>
    obtain ⟨-, hinside, hrest⟩ := hnamed
    obtain ⟨last', heq⟩ := run_inner want name hinside last t
    obtain ⟨last'', hend⟩ :=
      ihrest hrest last' (List.foldl (Tally.count want) t (match sectionOf name with
      | some kind => sectionEvents kind (inside.map filledId)
      | none => strays (inside.map filledId)))
    refine ⟨last'', ?_⟩
    rw [run_block, heq]
    exact hend.trans (found_append want _ t _ _).symm
  | leaf field rest ih =>
    have hleaf : (⟨outside 1 last, t⟩ : Parser).item want (.leaf field) =
        found want (outside 1 last) t ((filledId field).toList.map .rootId) := by
      unfold Parser.item
      dsimp only
      cases filledId field with
      | none => rfl
      | some value => simp [Parser.readId, outside, found, Tally.count]
    obtain ⟨last', hend⟩ :=
      ih hnamed last (List.foldl (Tally.count want) t ((filledId field).toList.map .rootId))
    refine ⟨last', ?_⟩
    rw [Forest.items, Parser.run_cons, hleaf]
    exact hend.trans (found_append want _ t _ _).symm

/-- The whole text. -/
lemma run_top {f : Forest Str (Str × Str)} (hnamed : Named f) (last : ℤ) (t : Tally) :
    ∃ last', (⟨outside 0 last, t⟩ : Parser).run want f.items = found want (outside 0 last') t
      (topEvents (f.map filledId)) := by
  induction f generalizing last t with
  | nil => exact ⟨last, rfl⟩
  | block name inside rest _ ihrest =>
    obtain ⟨-, hinside, hrest⟩ := hnamed
    have hopens : (⟨outside 0 last, t⟩ : Parser).item want (.opens name) =
        found want (outside 1 last) t [.top name] := by
      simp [Parser.item, Parser.openTop, Parser.openEntry, Parser.leave, outside,
        found, Tally.count]
    have hcloses : ∀ (last : ℤ) (t : Tally), (⟨outside 1 last, t⟩ : Parser).item want .closes =
        ⟨outside 0 last, t⟩ := by
      intro last t
      simp [Parser.item, Parser.leave, outside]
    obtain ⟨last', hroot⟩ :=
      run_root want hinside last ([Event.top name].foldl (Tally.count want) t)
    obtain ⟨last'', hend⟩ := ihrest hrest last'
      ((rootEvents (inside.map filledId)).foldl (Tally.count want) ([Event.top name].foldl (Tally.count want) t))
    refine ⟨last'', ?_⟩
    rw [run_block, hopens]
    show (((⟨_, _⟩ : Parser).run want inside.items).item want .closes).run want rest.items = _
    rw [hroot]
    show ((⟨_, _⟩ : Parser).item want .closes).run want rest.items = _
    rw [hcloses, hend, ← List.foldl_append]
    exact (found_append want _ t _ _).symm
  | leaf field rest ih =>
    have hleaf : (⟨outside 0 last, t⟩ : Parser).item want (.leaf field) =
        found want (outside 0 last) t ((filledId field).toList.map fun _ => .stray) := by
      unfold Parser.item
      dsimp only
      cases filledId field with
      | none => rfl
      | some value => simp [Parser.readId, outside, found, Tally.count]
    obtain ⟨last', hend⟩ :=
      ih hnamed last (List.foldl (Tally.count want) t ((filledId field).toList.map fun _ => .stray))
    refine ⟨last', ?_⟩
    rw [Forest.items, Parser.run_cons, hleaf]
    exact hend.trans (found_append want _ t _ _).symm

end Places

end Pxeos.Restore
