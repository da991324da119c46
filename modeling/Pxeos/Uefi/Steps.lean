import Pxeos.Uefi.Found

/-!
# The parts of the registration

What each part of `rootpxe_uefi_register_selected` does, for any answers of the commands that a
relation admits and any condition on the order that is written.
-/

namespace Pxeos.Uefi

open Pxeos.Lib

/-! ### The contract -/

/-- The boot variables, the last reading of them, and whether an entry has been made since. -/
structure Watch where
  fw : Firmware
  reading : Reading
  created : Bool

/-- The commands, watched. -/
def watching (R : Firmware → Sigma Answer → Prop) (G : Watch → List Str → Prop) :
    Contract Answer Watch where
  rely s a := R s.fw a
  guard s a := ∀ items, a.1 = .order items → G s items
  next s a :=
    match a with
    | ⟨.efibootmgrV, text⟩ => { s with reading := (Option.bind text readEntries).getD s.reading }
    | ⟨.create disk number label path, answer⟩ =>
      { s with fw := effect s.fw ⟨.create disk number label path, answer⟩, created := true }
    | a => { s with fw := effect s.fw a }

section Steps

variable {R : Firmware → Sigma Answer → Prop} {G : Watch → List Str → Prop} {sel : Selection}
  {v : Vars} {s : Watch}
variable {Q : Unit → Vars → Watch → Prop} {E : ℕ → Vars → Watch → Prop}

lemma holds_fail {α : Type} {code : String} {Q : α → Vars → Watch → Prop}
    (h : E 1 { v with error := code.toList } s) :
    Script.Holds (watching R G) (fail code) v s Q E :=
  Script.Holds.bind (Q := fun _ v' s' => E 1 v' s') (Script.holds_set h) fun _ _ _ h' =>
    Script.holds_exit h'

lemma holds_require {test : Bool} {code : String} (h : test = true → Q () v s)
    (he : test = false → E 1 { v with error := code.toList } s) :
    Script.Holds (watching R G) (require test code) v s Q E := by
  unfold require
  cases test with
  | true => exact Script.holds_pure (h rfl)
  | false => exact holds_fail (he rfl)

/-- The variables are read again. -/
lemma holds_reread
    (h : ∀ text, R s.fw ⟨.efibootmgrV, some text⟩ → ∀ r, readEntries text = some r →
      Q () { v with reading := r } { s with reading := r })
    (he : ∀ text : Option Str, R s.fw ⟨.efibootmgrV, text⟩ → text.bind readEntries = none →
      E 1 { v with error := "uefi_boot_variables_unavailable".toList } s) :
    Script.Holds (watching R G) rereadEntries v s Q E := by
  unfold rereadEntries
  refine Script.Holds.seq (Script.holds_ask fun text ht => ⟨nofun, ?_⟩)
  cases hr : Option.bind text readEntries with
  | none =>
    have hnext : (watching R G).next s ⟨.efibootmgrV, text⟩ = s := by
      show { s with reading := (Option.bind text readEntries).getD s.reading } = s
      rw [hr]
      rfl
    rw [hnext]
    exact holds_fail (he text ht hr)
  | some r =>
    obtain ⟨t, rfl, hr'⟩ := Option.bind_eq_some_iff.mp hr
    have hnext : (watching R G).next s ⟨.efibootmgrV, some t⟩ = { s with reading := r } := by
      show { s with reading := (Option.bind (some t) readEntries).getD s.reading } = _
      rw [hr]
      rfl
    rw [hnext]
    exact Script.holds_set (h t ht r hr')

lemma holds_find (h : Q () { v with found := findEntry sel v.reading } s) :
    Script.Holds (watching R G) (find sel) v s Q E :=
  Script.holds_set h

/-- What `chooseOld` does: it keeps what was found, or remembers the old entry, or forgets that the
old entry was found. -/
inductive Chosen (sel : Selection) (v : Vars) : Vars → Option Str → Prop
  | keep (h : replaces sel v.reading v.found = false) : Chosen sel v v none
  | other (h : replaces sel v.reading v.found = true) (hone : v.found.desiredCount ≤ 1)
      (hne : v.found.id ≠ v.found.managedId) :
      Chosen sel v v v.found.managedId
  | self (h : replaces sel v.reading v.found = true) (hone : v.found.desiredCount ≤ 1)
      (heq : v.found.id = v.found.managedId) :
      Chosen sel v { v with found := { v.found with id := none } } v.found.managedId

lemma holds_chooseOld {Q : Option Str → Vars → Watch → Prop}
    (h : ∀ v' old, Chosen sel v v' old → Q old v' s)
    (he : replaces sel v.reading v.found = true → 1 < v.found.desiredCount →
      E 1 { v with error := "uefi_boot_entry_readback_failed".toList } s) :
    Script.Holds (watching R G) (chooseOld sel) v s Q E := by
  unfold chooseOld
  refine Script.Holds.seq (Script.holds_vars ?_)
  split
  · rename_i hrep
    refine Script.Holds.seq (holds_require (fun hle => ?_) fun hgt => he hrep (by simpa using hgt))
    have hle : v.found.desiredCount ≤ 1 := of_decide_eq_true hle
    split
    · rename_i hid
      exact Script.Holds.seq (Script.holds_set (Script.holds_pure (h _ _ (.self hrep hle hid))))
    · rename_i hid
      exact Script.Holds.seq (Script.holds_pure (Script.holds_pure (h _ _ (.other hrep hle hid))))
  · rename_i hrep
    exact Script.holds_pure (h _ _ (.keep (by simpa using hrep)))

lemma managedCount_pos {r : Reading} {f : Found} (h : replaces sel r f = true) :
    0 < f.managedCount := by
  unfold replaces at h
  simp only [Bool.and_eq_true, beq_iff_eq] at h
  omega

/-- The whole registration: nothing is done if the entry is there, active, in the order, and
replaces nothing. -/
lemma holds_registerSelected
    (hmanaged : 0 < (findEntry sel v.reading).managedCount →
      (findEntry sel v.reading).managedId.isSome = true)
    (hquiet : listed v.reading.order (findEntry sel v.reading).id = true →
      (findEntry sel v.reading).active = true → replaces sel v.reading (findEntry sel v.reading) =
        false → Q () { v with found := findEntry sel v.reading } s)
    (h : ∀ v' old, Chosen sel { v with found := findEntry sel v.reading } v' old →
      (listed v.reading.order v'.found.id && v'.found.active && old.isNone) = false →
      Script.Holds (watching R G)
        (registerAs sel (typesOf v.reading.entries) v.reading.order old
          (listed v.reading.order v'.found.id)) v' s Q E)
    (he : replaces sel v.reading (findEntry sel v.reading) = true →
      1 < (findEntry sel v.reading).desiredCount → ∀ v, E 1 v s) :
    Script.Holds (watching R G) (registerSelected sel) v s Q E := by
  unfold registerSelected
  refine Script.Holds.seq (Script.holds_vars ?_)
  refine Script.Holds.seq (holds_find ?_)
  refine Script.Holds.seq (holds_chooseOld (fun v' old hc => ?_) fun hrep hgt => he hrep hgt _)
  refine Script.Holds.seq (Script.holds_vars ?_)
  dsimp only
  split
  · rename_i htest
    rw [Bool.and_eq_true, Bool.and_eq_true] at htest
    obtain ⟨⟨hl, ha⟩, hn⟩ := htest
    refine Script.holds_pure ?_
    have hold : old = none := Option.isNone_iff_eq_none.mp hn
    cases hc with
    | keep hrep => exact hquiet hl ha hrep
    | other hrep hone hne =>
      have hsome := hmanaged (managedCount_pos hrep)
      rw [show (findEntry sel v.reading).managedId = none from hold] at hsome
      cases hsome
    | self hrep hone heq => cases hl
  · rename_i htest
    exact h v' old hc (Bool.not_eq_true _ ▸ htest)

lemma holds_writeReady (h : v.ownVars = true ∨ mountedRw v.varsOptions = true → Q () v s)
    (hown : v.ownVars = true → R s.fw ⟨.remountRw, false⟩ →
      E 1 { v with error := "uefi_boot_variables_readonly".toList } s)
    (hother : v.ownVars = false → mountedRw v.varsOptions = false →
      E 1 { v with error := "uefi_boot_variables_readonly".toList } s) :
    Script.Holds (watching R G) writeReady v s Q E := by
  unfold writeReady
  refine Script.Holds.seq (Script.holds_vars ?_)
  split
  · rename_i hv
    refine Script.Holds.seq (Script.holds_ask fun ok hok => ⟨nofun, ?_⟩)
    refine holds_require (fun htrue => ?_) fun hfalse => ?_
    · obtain rfl : ok = true := htrue
      exact h (.inl hv)
    · obtain rfl : ok = false := hfalse
      exact hown hv hok
  · rename_i hv
    exact holds_require (fun hrw => h (.inr hrw)) (hother (by simpa using hv))

/-- A new entry is made, and found again. -/
lemma holds_create
    (h : ∀ e k, R s.fw ⟨.create sel.disk sel.number sel.label sel.pathKey, some (e, k)⟩ → ∀ text,
      R (s.fw.create e k) ⟨.efibootmgrV, some text⟩ → ∀ r, readEntries text = some r →
        (findEntry sel r).id.isSome = true → (findEntry sel r).desiredCount = 1 →
        matchLabel r (findEntry sel r) = sel.label →
        Q () { v with reading := r, found := findEntry sel r } ⟨s.fw.create e k, r, true⟩)
    (he : ∀ n v s, E n v s) : Script.Holds (watching R G) (createEntry sel) v s Q E := by
  unfold createEntry
  refine Script.Holds.seq (Script.holds_ask fun made hmade => ⟨nofun, ?_⟩)
  refine Script.Holds.seq (holds_require (fun hsome => ?_) fun _ => he _ _ _)
  obtain ⟨⟨e, k⟩, rfl⟩ := Option.isSome_iff_exists.mp hsome
  have hnext :
      (watching R G).next s ⟨.create sel.disk sel.number sel.label sel.pathKey, some (e, k)⟩ =
      ⟨s.fw.create e k, s.reading, true⟩ := rfl
  rw [hnext]
  refine Script.Holds.seq (holds_reread (fun text ht r hr => ?_) fun _ _ _ => he _ _ _)
  refine Script.Holds.seq (holds_find ?_)
  refine Script.Holds.seq (Script.holds_vars ?_)
  refine holds_require (fun htest => ?_) fun _ => he _ _ _
  rw [Bool.and_eq_true, Bool.and_eq_true, beq_iff_eq, beq_iff_eq] at htest
  exact h e k hmade text ht r hr htest.1.1 htest.1.2 htest.2

lemma holds_ensure (hkeep : v.found.id ≠ none → Q () v s)
    (h : v.found.id = none → ∀ e k, R s.fw ⟨.create sel.disk sel.number sel.label sel.pathKey,
      some (e, k)⟩ → ∀ text, R (s.fw.create e k) ⟨.efibootmgrV, some text⟩ → ∀ r,
        readEntries text = some r → (findEntry sel r).id.isSome = true →
        (findEntry sel r).desiredCount = 1 → matchLabel r (findEntry sel r) = sel.label →
        Q () { v with reading := r, found := findEntry sel r } ⟨s.fw.create e k, r, true⟩)
    (he : v.found.id = none → ∀ n v s, E n v s) :
    Script.Holds (watching R G) (ensureEntry sel) v s Q E := by
  unfold ensureEntry
  refine Script.Holds.seq (Script.holds_vars ?_)
  split
  · rename_i hnone
    exact holds_create (h hnone) (he hnone)
  · rename_i hsome
    exact Script.holds_pure (hkeep hsome)

lemma holds_activate (h : v.found.active = true → Q () v s)
    (hask : v.found.active = false → R s.fw ⟨.activate (v.found.id.getD []), true⟩ →
      Q () v { s with fw := s.fw.activate (v.found.id.getD []) })
    (he : v.found.active = false → R s.fw ⟨.activate (v.found.id.getD []), false⟩ →
      E 1 { v with error := "uefi_boot_entry_activate_failed".toList } s) :
    Script.Holds (watching R G) activateEntry v s Q E := by
  unfold activateEntry
  refine Script.Holds.seq (Script.holds_vars ?_)
  split
  · exact Script.holds_pure (h ‹_›)
  · rename_i hna
    have hna : v.found.active = false := by simpa using hna
    refine Script.Holds.seq (Script.holds_ask fun ok hok => ⟨nofun, ?_⟩)
    refine holds_require (fun htrue => ?_) fun hfalse => ?_
    · obtain rfl : ok = true := htrue
      exact hask hna hok
    · obtain rfl : ok = false := hfalse
      exact he hna hok

lemma holds_writeOrder {desired : List Str} (h : v.reading.order = desired → Q () v s)
    (hg : v.reading.order ≠ desired → G s desired)
    (hask : v.reading.order ≠ desired → R s.fw ⟨.order desired, true⟩ →
      Q () v { s with fw := s.fw.setOrder desired })
    (he : v.reading.order ≠ desired → R s.fw ⟨.order desired, false⟩ →
      E 1 { v with error := "uefi_boot_order_update_failed".toList } s) :
    Script.Holds (watching R G) (writeOrder desired) v s Q E := by
  unfold writeOrder
  refine Script.Holds.seq (Script.holds_vars ?_)
  split
  · rename_i hne
    refine Script.Holds.seq (Script.holds_ask fun ok hok => ⟨fun items hi => ?_, ?_⟩)
    · cases hi
      exact hg hne
    · refine holds_require (fun htrue => ?_) fun hfalse => ?_
      · obtain rfl : ok = true := htrue
        exact hask hne hok
      · obtain rfl : ok = false := hfalse
        exact he hne hok
  · rename_i heq
    exact Script.holds_pure (h (not_not.mp heq))

/-- The old entry is deleted, and the entry is found once more. -/
lemma holds_deleteOld {old : Str} {desired : List Str}
    (h : R s.fw ⟨.delete old, true⟩ → ∀ text, R (s.fw.delete old) ⟨.efibootmgrV, some text⟩ → ∀ r,
      readEntries text = some r → r.labels.lookup old = none → (findEntry sel r).id.isSome = true →
      (findEntry sel r).active = true → matchLabel r (findEntry sel r) = sel.label →
      r.order = desired → Q () { v with reading := r, found := findEntry sel r }
        { s with fw := s.fw.delete old, reading := r })
    (he : ∀ n v s, E n v s) : Script.Holds (watching R G) (deleteOld sel old desired) v s Q E := by
  unfold deleteOld
  refine Script.Holds.seq (Script.holds_vars ?_)
  refine Script.Holds.seq (holds_require (fun _ => ?_) fun _ => he _ _ _)
  refine Script.Holds.seq (Script.holds_ask fun ok hok => ⟨nofun, ?_⟩)
  refine Script.Holds.seq (holds_require (fun htrue => ?_) fun _ => he _ _ _)
  obtain rfl : ok = true := htrue
  have hnext : (watching R G).next s ⟨.delete old, true⟩ = { s with fw := s.fw.delete old } := rfl
  rw [hnext]
  refine Script.Holds.seq (holds_reread (fun text ht r hr => ?_) fun _ _ _ => he _ _ _)
  refine Script.Holds.seq (holds_find ?_)
  refine Script.Holds.seq (Script.holds_vars ?_)
  refine holds_require (fun htest => ?_) fun _ => he _ _ _
  simp only [Bool.and_eq_true, beq_iff_eq, Option.isNone_iff_eq_none] at htest
  obtain ⟨⟨⟨⟨h1, h2⟩, h3⟩, h4⟩, h5⟩ := htest
  exact h hok text ht r hr h1 h2 h3 h4 h5

end Steps

end Pxeos.Uefi
