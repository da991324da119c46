import Pxeos.Uefi.Order

/-!
# When nothing is to do

The boot variables with which the registration ends well and writes nothing: the entry that is found
in them is active, in the order, and replaces nothing.
-/

namespace Pxeos.Uefi

open Pxeos.Lib

variable {sel : Selection} {fw : Firmware} {r : Reading}

/-! ### Ranks -/

section Ranks

lemma reading_order (hr : fw.reading = some r) : r.order = fw.order.getD [] := by
  obtain ⟨es, -, rfl⟩ := Option.map_eq_some_iff.mp hr
  rfl

lemma rank_of_active {e : BootEntry} (h : e.active = true) : e.rank sel = rankOf sel e.label := by
  unfold BootEntry.rank BootEntry.shown
  rw [if_pos h]

/-- The blank keeps the label of an inactive entry from being known. -/
lemma rank_of_inactive {e : BootEntry} (h : e.active = false) : e.rank sel = 3 := by
  have hshown : e.shown = ' ' :: e.label := by
    unfold BootEntry.shown
    rw [h]
    rfl
  have h1 : ' ' :: e.label ≠ managedLabel := fun heq => by
    have hhead : some ' ' = managedLabel.head? := congrArg List.head? heq
    exact absurd hhead (by decide +kernel)
  have h2 : ' ' :: e.label ≠ sel.label := fun heq => sel.label_ok (by rw [← heq]; rfl)
  unfold BootEntry.rank rankOf
  rw [hshown, if_neg h1, if_neg h2]

lemma active_of_rank {e : BootEntry} (h : e.rank sel ≤ 2) : e.active = true := by
  by_contra hna
  have := @rank_of_inactive sel _ (Bool.not_eq_true _ ▸ hna)
  omega

lemma rank_le_two_iff {e : BootEntry} :
    e.rank sel ≤ 2 ↔ e.shown = managedLabel ∨ e.shown = sel.label := by
  unfold BootEntry.rank rankOf
  split
  · rename_i h
    exact ⟨fun _ => .inl h, fun _ => by decide⟩
  · split
    · rename_i h
      exact ⟨fun _ => .inr h, fun _ => by decide⟩
    · rename_i h1 h2
      exact ⟨fun h => absurd h (by decide), fun h => (h.elim h1 h2).elim⟩

/-- The entry that was found. -/
lemma exists_found (hr : fw.reading = some r) {i : Str} (hi : (findEntry sel r).id = some i) :
    ∃ e ∈ fw.matching sel, e.id = i ∧ e.active = (findEntry sel r).active ∧
      e.rank sel = (findEntry sel r).best ∧
      matchLabel r (findEntry sel r) = e.shown := by
  obtain ⟨e, he, hid, ha, hb⟩ := (isFound_findEntry hr).mem i hi
  refine ⟨e, he, hid, ha, hb, ?_⟩
  unfold matchLabel
  rw [hi, Option.getD_some, ← hid]
  exact label_of_mem hr (List.mem_of_mem_filter he)

/-- When the entry with the managed label is replaced. -/
lemma replaces_iff (hr : fw.reading = some r) : replaces sel r (findEntry sel r) = true ↔
    (findEntry sel r).managedCount = 1 ∧ sel.label ≠ defaultLabel ∧ (findEntry sel r).best ≤ 2 := by
  have hfound := @isFound_findEntry sel _ _ hr
  unfold replaces
  rw [Bool.and_eq_true, Bool.and_eq_true, beq_iff_eq, bne_iff_ne, Bool.or_eq_true, beq_iff_eq,
    beq_iff_eq, and_assoc]
  refine and_congr_right fun hcount => and_congr_right fun _ => ?_
  have hne : fw.matching sel ≠ [] := by
    intro hnil
    have := hfound.managedCount
    rw [hnil, hcount] at this
    cases this
  obtain ⟨i, hi⟩ := Option.isSome_iff_exists.mp (hfound.isSome hne)
  obtain ⟨e, -, -, -, hb, hlabel⟩ := exists_found hr hi
  rw [hlabel, ← hb]
  exact rank_le_two_iff.symm

/-- An entry of the best rank that is active and in the order makes the entry that is found such a
one. -/
lemma found_listed (hr : fw.reading = some r) {e : BootEntry} (he : e ∈ fw.matching sel)
    (hbest : ∀ e' ∈ fw.matching sel, e'.rank sel ≤ e.rank sel) (ha : e.active = true)
    (hl : e.id ∈ r.order) :
    (findEntry sel r).active = true ∧ listed r.order (findEntry sel r).id = true ∧
    (findEntry sel r).best = e.rank sel := by
  have hfound := @isFound_findEntry sel _ _ hr
  have hbest' : e.rank sel = (findEntry sel r).best := by
    refine le_antisymm (hfound.le_best e he) ?_
    obtain ⟨i, hi⟩ := Option.isSome_iff_exists.mp (hfound.isSome (List.ne_nil_of_mem he))
    obtain ⟨e', he', -, -, hb, -⟩ := exists_found hr hi
    rw [← hb]
    exact hbest e' he'
  rw [reading_order hr] at hl ⊢
  obtain ⟨h1, h2⟩ := hfound.listed_of e he hbest' ha hl
  exact ⟨h1, h2, hbest'.symm⟩

end Ranks

/-! ### Nothing to do -/

section Quiet

variable (sel) in
/-- What is found in a reading is there, active, in the order, and replaces nothing. -/
structure Quiet (r : Reading) : Prop where
  listed : listed r.order (findEntry sel r).id = true
  active : (findEntry sel r).active = true
  alone : replaces sel r (findEntry sel r) = false

/-- The commands with nothing asked of the order. -/
abbrev commands (R : Firmware → Sigma Answer → Prop) : Contract Answer Watch :=
  watching R fun _ _ => True

/-- A command that leaves the boot variables as they are. -/
def IsRead (c : Call) : Prop := c = .efibootmgrV ∨ c = .remountRw

/-- The documented answers of an `efibootmgr -v` that does not fail. -/
def Printing (fw : Firmware) (a : Sigma Answer) : Prop := Documented fw a ∧ a ≠ ⟨.efibootmgrV, none⟩

variable (sel) in
/-- The registration with these boot variables ends well and writes nothing, as long as they can be
printed. -/
def Settled (fw : Firmware) : Prop :=
  ∀ (v : Vars) (τ : List (Sigma Answer)) (o : Option (Except ℕ Unit × Vars)),
    (register sel v).Runs τ o →
    (commands Printing).Along (commands Printing).rely ⟨fw, v.reading, false⟩ τ →
      (∀ a ∈ τ, IsRead a.1) ∧ ∀ res, o = some res → res.1 = .ok ()

/-- Nothing is done where nothing is to do. -/
lemma registerSelected_quiet {v : Vars} (h : Quiet sel v.reading) :
    registerSelected sel v = .ret (.ok (), { v with found := findEntry sel v.reading }) := by
  have hrep : ¬ replaces sel v.reading (findEntry sel v.reading) = true := by
    rw [h.alone]
    exact Bool.false_ne_true
  have htest :
      (listed v.reading.order (findEntry sel v.reading).id && (findEntry sel v.reading).active &&
      (none : Option Str).isNone) = true := by
    rw [h.listed, h.active]
    rfl
  have hchoose : chooseOld sel { v with found := findEntry sel v.reading } =
      .ret (.ok none, { v with found := findEntry sel v.reading }) := by
    show (if replaces sel v.reading (findEntry sel v.reading) then
      _ else _ : Shell (Option Str)) _ = _
    rw [if_neg hrep]
    rfl
  show Prog.bind (chooseOld sel { v with found := findEntry sel v.reading }) _ = _
  rw [hchoose]
  show (if (listed v.reading.order (findEntry sel v.reading).id &&
    (findEntry sel v.reading).active &&
    (none : Option Str).isNone) = true then _ else _ : Shell Unit) _ = _
  rw [if_pos htest]
  rfl

variable (sel) in
/-- The registration behind the first reading. -/
def registerRead (v : Vars) (read : Option Reading) : Prog Call Answer (Except ℕ Unit × Vars) :=
  Script.bind (match read with
    | some r => Script.set fun v => { v with reading := r }
    | none => fail "uefi_boot_variables_unavailable" : Shell Unit) (fun _ => registerSelected sel) v

lemma register_eq (v : Vars) :
    register sel v = .call .efibootmgrV fun text : Answer .efibootmgrV =>
      registerRead sel v (Option.bind text readEntries) := rfl

lemma bind_readEntries {text : Option Str} (h : Printing fw ⟨.efibootmgrV, text⟩) :
    text.bind readEntries = fw.reading := by
  obtain ⟨hdoc, hne⟩ := h
  cases text with
  | none => exact absurd rfl hne
  | some t => rw [Option.bind_some, show t = fw.print from hdoc, readEntries_print]

lemma settled_of_quiet (hr : fw.reading = some r) (h : Quiet sel r) : Settled sel fw := by
  intro v τ o hruns hprint
  rw [register_eq] at hruns
  have hread : IsRead Call.efibootmgrV := .inl rfl
  cases hruns with
  | cut => exact ⟨by simp, fun _ h => by cases h⟩
  | @call _ _ text τ _ hrest =>
    obtain ⟨hanswer, -⟩ := hprint
    have htext : Option.bind text readEntries = some r := (bind_readEntries hanswer).trans hr
    have hend : registerRead sel v (some r) =
        .ret (.ok (), { v with reading := r, found := findEntry sel r }) :=
      registerSelected_quiet (v := { v with reading := r }) h
    have hrest : (registerRead sel v (Option.bind text readEntries)).Runs τ o := hrest
    rw [htext, hend] at hrest
    cases hrest with
    | cut => exact ⟨by simpa using hread, fun _ h => by cases h⟩
    | ret =>
      refine ⟨by simpa using hread, fun res hres => ?_⟩
      obtain rfl := Option.some.inj hres
      rfl

/-! ### The registration ends -/

lemma ends_require (test : Bool) (code : String) : Script.Ends (require test code) := by
  unfold require fail
  cases test with
  | true => exact Script.ends_pure _
  | false => exact (Script.ends_set _).bind fun _ => Script.ends_exit _

lemma ends_reread : Script.Ends rereadEntries := by
  refine (Script.ends_ask _).bind fun text => ?_
  split
  · exact Script.ends_set _
  · exact (Script.ends_set _).bind fun _ => Script.ends_exit _

lemma ends_writeReady : Script.Ends writeReady := by
  refine Script.ends_vars.bind fun v => ?_
  split
  · exact (Script.ends_ask _).bind fun ok => ends_require _ _
  · exact ends_require _ _

lemma ends_chooseOld : Script.Ends (chooseOld sel) := by
  refine Script.ends_vars.bind fun v => ?_
  split
  · refine (ends_require _ _).bind fun _ => ?_
    split
    · exact (Script.ends_set _).bind fun _ => Script.ends_pure _
    · exact (Script.ends_pure _).bind fun _ => Script.ends_pure _
  · exact Script.ends_pure _

lemma ends_ensure : Script.Ends (ensureEntry sel) := by
  refine Script.ends_vars.bind fun v => ?_
  split
  · refine (Script.ends_ask _).bind fun made => (ends_require _ _).bind fun _ =>
      ends_reread.bind fun _ => ?_
    exact (Script.ends_set _).bind fun _ => Script.ends_vars.bind fun _ => ends_require _ _
  · exact Script.ends_pure _

lemma ends_activate : Script.Ends activateEntry := by
  refine Script.ends_vars.bind fun v => ?_
  split
  · exact Script.ends_pure _
  · exact (Script.ends_ask _).bind fun ok => ends_require _ _

lemma ends_writeOrder (desired : List Str) : Script.Ends (writeOrder desired) := by
  refine Script.ends_vars.bind fun v => ?_
  split
  · exact (Script.ends_ask _).bind fun ok => ends_require _ _
  · exact Script.ends_pure _

lemma ends_deleteOld (old : Str) (desired : List Str) :
    Script.Ends (deleteOld sel old desired) := by
  refine Script.ends_vars.bind fun v => (ends_require _ _).bind fun _ =>
    (Script.ends_ask _).bind fun ok => ?_
  refine (ends_require _ _).bind fun _ => ends_reread.bind fun _ =>
    (Script.ends_set _).bind fun _ => ?_
  exact Script.ends_vars.bind fun _ => ends_require _ _

lemma ends_registerAs (types : List (Str × Str)) (original : List Str) (old : Option Str)
    (isListed : Bool) :
    Script.Ends (registerAs sel types original old isListed) := by
  refine ends_writeReady.bind fun _ => ends_ensure.bind fun _ => ends_activate.bind fun _ =>
    Script.ends_vars.bind fun v => ?_
  refine (ends_writeOrder _).bind fun _ => ends_reread.bind fun _ =>
    (Script.ends_set _).bind fun _ => ?_
  refine Script.ends_vars.bind fun _ => (ends_require _ _).bind fun _ => ?_
  cases old with
  | none => exact Script.ends_pure _
  | some old => exact ends_deleteOld old _

/-- **The registration ends**, whatever the commands answer. -/
theorem ends_register : Script.Ends (register sel) := by
  refine ends_reread.bind fun _ => Script.ends_vars.bind fun v => (Script.ends_set _).bind fun _ =>
    ends_chooseOld.bind fun old => ?_
  refine Script.ends_vars.bind fun v => ?_
  dsimp only
  split
  · exact Script.ends_pure _
  · exact ends_registerAs _ _ _ _

/-! ### A run without a write -/

/-- The answers of commands that write nothing. -/
def OnlyReads (fw : Firmware) (a : Sigma Answer) : Prop := Printing fw a ∧ IsRead a.1

lemma along_commands {R R' P P' : Firmware → Sigma Answer → Prop} {s : Watch}
    {τ : List (Sigma Answer)} (h : (commands R).Along (fun s a => P s.fw a) s τ)
    (hτ : ∀ s, ∀ a ∈ τ, P s a → P' s a) :
    (commands R').Along (fun s a => P' s.fw a) s τ := by
  induction τ generalizing s with
  | nil => trivial
  | cons a τ ih =>
    exact ⟨hτ _ a List.mem_cons_self h.1, ih h.2 fun s b hb => hτ s b (List.mem_cons_of_mem _ hb)⟩

lemma not_isRead {c : Call} {P : Prop} (h : IsRead c) (h1 : c ≠ .efibootmgrV)
    (h2 : c ≠ .remountRw) : P := (h.elim h1 h2).elim

/-- The reading of the text that is printed. -/
lemma reading_of_printed {text : Str} (h : Documented fw ⟨.efibootmgrV, some text⟩)
    (hr : readEntries text = some r) :
    fw.reading = some r := by
  rw [← readEntries_print, ← show text = fw.print from h]
  exact hr

/-- What has written nothing and ended well has found nothing to do. -/
lemma holds_register_reads {v : Vars} {s : Watch} (hfw : s.fw = fw) :
    Script.Holds (commands OnlyReads) (register sel) v s (fun _ _ _ => ∃ r,
      fw.reading = some r ∧ Quiet sel r)
      (fun _ _ _ => True) := by
  subst hfw
  refine Script.Holds.seq (holds_reread (fun text ht r hread => ?_) fun _ _ _ => trivial)
  have hr : s.fw.reading = some r := reading_of_printed ht.1.1 hread
  refine holds_registerSelected (isFound_findEntry hr).managed_isSome
    (fun hl ha hrep => ⟨r, hr, hl, ha, hrep⟩)
    (fun v' old hc htest => ?_) fun _ _ _ => trivial
  have hreading : v'.reading = r := by cases hc <;> rfl
  refine Script.Holds.bind (Q := fun _ v₁ s₁ => v₁ = v' ∧ s₁.fw = s.fw)
    (holds_writeReady (fun _ => ⟨rfl, rfl⟩) (fun _ _ => trivial) fun _ _ => trivial) ?_
  rintro ⟨⟩ v₁ s₁ ⟨rfl, hfw⟩
  refine Script.Holds.seq
    (holds_ensure (fun hsome => ?_) (fun _ _ _ hR => not_isRead hR.2 nofun nofun)
      fun _ _ _ _ => trivial)
  refine Script.Holds.seq (holds_activate (fun ha => ?_) (fun _ hR => not_isRead hR.2 nofun nofun)
    fun _ _ => trivial)
  refine Script.Holds.seq (Script.holds_vars ?_)
  refine Script.Holds.seq
    (holds_writeOrder (fun heq => ?_) (fun _ => trivial) (fun _ hR => not_isRead hR.2 nofun nofun)
    fun _ _ => trivial)
  cases old with
  | some old =>
    refine Script.Holds.seq (holds_reread (fun _ _ _ _ => ?_) fun _ _ _ => trivial)
    refine Script.Holds.seq (holds_find ?_)
    refine Script.Holds.seq (Script.holds_vars ?_)
    refine Script.Holds.seq (holds_require (fun _ => ?_) fun _ => trivial)
    exact holds_deleteOld (fun hR => not_isRead hR.2 nofun nofun) fun _ _ _ => trivial
  | none =>
    -- the entry is active and would be new in the order, which is the order that there is
    obtain ⟨i, hi⟩ := Option.ne_none_iff_exists'.mp hsome
    have hl : listed r.order v₁.found.id = false := by
      rw [ha] at htest
      simpa using htest
    rw [hreading, hi, Option.getD_some, ← hi, hl] at heq
    have hmem : i ∈ r.order := by
      rw [heq]
      exact mem_desiredOrder (Option.some_ne_none i).symm fun h => absurd h Bool.false_ne_true
    rw [hi, listed_some.mpr hmem] at hl
    cases hl

/-- **When nothing is to do.** -/
theorem settled_iff : Settled sel fw ↔ ∃ r, fw.reading = some r ∧ Quiet sel r := by
  constructor
  · intro h
    have hanswer : ∀ (s : Watch) (c : Call), ∃ a, (commands Printing).rely s ⟨c, a⟩ := by
      intro s c
      cases c with
      | efibootmgrV => exact ⟨some s.fw.print, rfl, nofun⟩
      | remountRw => exact ⟨true, trivial, nofun⟩
      | create => exact ⟨none, trivial, nofun⟩
      | activate => exact ⟨false, trivial, nofun⟩
      | order => exact ⟨false, trivial, nofun⟩
      | delete => exact ⟨false, trivial, nofun⟩
    let v : Vars := ⟨⟨[], [], []⟩, Found.none, true, [], []⟩
    obtain ⟨τ, res, hruns, halong⟩ :=
      (@ends_register sel v).exists_runs hanswer ⟨fw, v.reading, false⟩
    obtain ⟨hreads, hok⟩ := h v τ _ hruns halong
    have hreadsAlong : (commands OnlyReads).Along (commands OnlyReads).rely
        ⟨fw, v.reading, false⟩ τ :=
      @along_commands _ _ _ OnlyReads _ _ halong fun s a ha hp => ⟨hp, hreads a ha⟩
    have hpost :=
      (Contract.Safe.along (@holds_register_reads sel _ v _ rfl) hruns hreadsAlong).2 res rfl
    obtain ⟨result, v'⟩ := res
    obtain rfl : result = .ok () := hok _ rfl
    exact hpost
  · rintro ⟨r, hr, hq⟩
    exact settled_of_quiet hr hq

end Quiet

end Pxeos.Uefi
