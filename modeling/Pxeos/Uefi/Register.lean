import Pxeos.Uefi.Firmware
import Pxeos.Lib.Script

/-!
# The registration of the selected loader

`rootpxe_uefi_find_entry` and `rootpxe_uefi_register_selected` of `uefi-boot.sh`: the entry of the
selected loader is looked for, made if there is none, activated, put into the order, and read back
after each of these steps.
-/

namespace Pxeos.Uefi

open Pxeos.Lib

/-! ### What is selected -/

/-- The selected loader: `uefi_disk` to `uefi_path_key`, and `uefi_label`, which begins with a
letter or a digit. -/
structure Selection where
  disk : Str
  number : Str
  kind : Str
  signature : Str
  start : Str
  size : Str
  pathKey : Str
  label : Str
  label_ok : label.head? ≠ some ' '

/-- The fields of an entry. -/
structure Fields where
  id : Str
  active : Str
  number : Str
  kind : Str
  signature : Str
  start : Str
  size : Str
  path : Str
  classification : Str

/-- `IFS='|' read -r id active number kind signature start size path classification`. -/
def fieldsOf (entry : Str) : Fields :=
  let fields := readMany '|' 9 entry
  { id := fields.getD 0 []
    active := fields.getD 1 []
    number := fields.getD 2 []
    kind := fields.getD 3 []
    signature := fields.getD 4 []
    start := fields.getD 5 []
    size := fields.getD 6 []
    path := fields.getD 7 []
    classification := fields.getD 8 [] }

/-- Whether an entry is one of the selected loader. -/
def Selection.matches (sel : Selection) (e : Fields) : Bool :=
  e.number == sel.number && e.kind == sel.kind && e.signature == sel.signature &&
    e.path == sel.pathKey &&
    (e.kind != "MBR".toList || (e.start == sel.start && e.size == sel.size))

def managedLabel : Str := "RootPXE OS".toList

def defaultLabel : Str := "Linux".toList

/-! ### The search -/

/-- What is found: `best`, `uefi_match`, `uefi_match_active`, `uefi_managed_id`,
`uefi_managed_count` and `uefi_desired_count`. -/
structure Found where
  best : ℕ
  id : Option Str
  active : Bool
  managedId : Option Str
  managedCount : ℕ
  desiredCount : ℕ
  deriving DecidableEq, Repr

def Found.none : Found := ⟨0, .none, false, .none, 0, 0⟩

/-- The rank of an entry by its label. -/
def rankOf (sel : Selection) (label : Str) : ℕ :=
  if label = managedLabel then 1 else if label = sel.label then 2 else 3

/-- Whether a text is in the order. -/
def listed (order : List Str) (id : Option Str) : Bool := id.any (order.contains ·)

/-- Whether an entry takes the place of the one that was found before. -/
def Found.yields (f : Found) (order : List Str) (rank : ℕ) (id : Str) (active : Bool) : Bool :=
  decide (f.best < rank) || (rank == f.best && !f.active && active) ||
    (rank == f.best && !listed order f.id && active && order.contains id)

/-- The value of an element of `uefi_labels`. -/
def Reading.label (r : Reading) (id : Str) : Str := (r.labels.lookup id).getD []

/-- The body of the loop of `rootpxe_uefi_find_entry`. -/
def findStep (sel : Selection) (r : Reading) (f : Found) (entry : Str) : Found :=
  let e := fieldsOf entry
  if sel.matches e then
    let rank := rankOf sel (r.label e.id)
    let active := e.active == "yes".toList
    let f' : Found := if f.yields r.order rank e.id active then
      { f with best := rank, id := some e.id, active := active } else f
    if rank = 1 then { f' with managedId := some e.id, managedCount := f.managedCount + 1 }
    else if rank = 2 then { f' with desiredCount := f.desiredCount + 1 }
    else f'
  else f

/-- `rootpxe_uefi_find_entry`. -/
def findEntry (sel : Selection) (r : Reading) : Found := r.entries.foldl (findStep sel r) Found.none

/-! ### The order -/

/-- `types`, with the last assignment first. -/
def typesOf (entries : List Str) : List (Str × Str) :=
  (entries.map fun e => ((fieldsOf e).id, (fieldsOf e).classification)).reverse

def isLocal (types : List (Str × Str)) (item : Str) : Bool :=
  types.lookup item == some "local".toList

def isNetwork (types : List (Str × Str)) (item : Str) : Bool :=
  types.lookup item == some "network".toList

/-- The loop that puts the entry in the place of an old one. -/
def replaceOld (id old : Str) (items : List Str) : List Str :=
  items.foldl (fun desired item => if item ≠ id then desired ++ [if item = old then id else item]
    else desired) []

/-- The body of the first loop for a new item. -/
def anchorStep (types : List (Str × Str)) (found : Option Str × Option Str) (item : Str) :
    Option Str × Option Str :=
  (if isLocal types item && found.1.isNone then some item else found.1, if isNetwork types item then
    some item else found.2)

/-- The first loop for a new item: the first local item and the last one of the network. -/
def anchors (types : List (Str × Str)) (id : Str) (items : List Str) : Option Str × Option Str :=
  items.foldl (fun found item => if item ≠ id then anchorStep types found item
    else found) (none, none)

/-- The body of the second loop, with the flag `inserted`. -/
def insertStep (id : Str) (anchor lastNetwork : Option Str) (state : List Str × Bool) (item : Str) :
    List Str × Bool :=
  let (desired, inserted) := if anchor = some item then (state.1 ++ [id], true) else state
  let desired := desired ++ [item]
  if anchor = none ∧ lastNetwork = some item then (desired ++ [id], true) else (desired, inserted)

/-- The second loop. -/
def insertNew (types : List (Str × Str)) (id : Str) (items : List Str) : List Str :=
  let (anchor, lastNetwork) := anchors types id items
  let start := if anchor = none ∧ lastNetwork = none then ([id], true) else ([], false)
  let (desired, inserted) :=
    items.foldl (fun state item => if item ≠ id then insertStep id anchor lastNetwork state item
      else state) start
  if inserted then desired else desired ++ [id]

/-- `desired`. -/
def desiredOrder (types : List (Str × Str)) (original : List Str) (id : Str) (old : Option Str)
    (isListed : Bool) : List Str :=
  match old.filter (original.contains ·) with
  | some old => replaceOld id old original
  | none => if isListed then original else insertNew types id original

/-! ### The commands -/

inductive Call where
  | efibootmgrV
  | remountRw
  | create (disk number label path : Str)
  | activate (id : Str)
  | order (items : List Str)
  | delete (id : Str)
  deriving DecidableEq

/-- What a command gives: of `efibootmgr -v` the text, unless it fails or complains; of `efibootmgr
-C` the entry that it has made and its place in the listing, of which the script sees that it has
ended well. -/
def Answer : Call → Type
  | .efibootmgrV => Option Str
  | .create .. => Option (BootEntry × ℕ)
  | _ => Bool

instance : (c : Call) → DecidableEq (Answer c)
  | .efibootmgrV => inferInstanceAs (DecidableEq (Option Str))
  | .create .. => inferInstanceAs (DecidableEq (Option (BootEntry × ℕ)))
  | .remountRw => inferInstanceAs (DecidableEq Bool)
  | .activate _ => inferInstanceAs (DecidableEq Bool)
  | .order _ => inferInstanceAs (DecidableEq Bool)
  | .delete _ => inferInstanceAs (DecidableEq Bool)

/-- `uefi_entries`, `uefi_labels` and `uefi_order`, what was found in them, the options of the mount
of the variables, and `uefi_error`. -/
structure Vars where
  reading : Reading
  found : Found
  ownVars : Bool
  varsOptions : Str
  error : Str

abbrev Shell (α : Type) : Type := Script Call Answer Vars α

/-- `rootpxe_uefi_fail` and `return 1`. -/
def fail {α : Type} (code : String) : Shell α := do
  Script.set fun v => { v with error := code.toList }
  Script.exit 1

/-- `[[ test ]] || { rootpxe_uefi_fail code; return 1; }`. -/
def require (test : Bool) (code : String) : Shell Unit := if test then pure () else fail code

/-- `rootpxe_uefi_read_entries`. -/
def rereadEntries : Shell Unit := do
  let text : Option Str ← (Script.ask Call.efibootmgrV : Shell (Answer _))
  match text.bind readEntries with
  | some r => Script.set fun v => { v with reading := r }
  | none => fail "uefi_boot_variables_unavailable"

/-- `[[ ,$uefi_vars_options, == *,rw,* ]]`. -/
def mountedRw (options : Str) : Bool := (afterFirst ",rw,".toList (',' :: options ++ [','])).isSome

/-- `rootpxe_uefi_write_ready`. -/
def writeReady : Shell Unit := do
  let v ← Script.vars
  if v.ownVars then do
    let ok : Bool ← (Script.ask Call.remountRw : Shell (Answer _))
    require ok "uefi_boot_variables_readonly"
  else
    require (mountedRw v.varsOptions) "uefi_boot_variables_readonly"

variable (sel : Selection)

/-- `rootpxe_uefi_find_entry` on the variables. -/
def find : Shell Unit := Script.set fun v => { v with found := findEntry sel v.reading }

/-- The label of the entry that was found. -/
def matchLabel (r : Reading) (f : Found) : Str := r.label (f.id.getD [])

/-- Whether the one entry with the managed label is to be replaced. -/
def replaces (r : Reading) (f : Found) : Bool :=
  f.managedCount == 1 && sel.label != defaultLabel &&
    (matchLabel r f == managedLabel || matchLabel r f == sel.label)

/-- `old_id`; the entry that was found is forgotten if it is the old one. -/
def chooseOld : Shell (Option Str) := do
  let v ← Script.vars
  if replaces sel v.reading v.found then do
    require (v.found.desiredCount ≤ 1) "uefi_boot_entry_readback_failed"
    if v.found.id = v.found.managedId then
      Script.set fun v => { v with found := { v.found with id := none } }
    pure v.found.managedId
  else pure none

/-- A new entry, found again. -/
def createEntry : Shell Unit := do
  let made :
      Option (BootEntry × ℕ) ← (Script.ask (Call.create sel.disk sel.number sel.label sel.pathKey) :
        Shell (Answer _))
  require made.isSome "uefi_boot_entry_create_failed"
  rereadEntries
  find sel
  let v ← Script.vars
  require (v.found.id.isSome && v.found.desiredCount == 1 &&
    matchLabel v.reading v.found == sel.label) "uefi_boot_entry_readback_failed"

/-- `[[ -z $uefi_match ]]`. -/
def ensureEntry : Shell Unit := do
  let v ← Script.vars
  if v.found.id = none then createEntry sel

/-- The entry is made active. -/
def activateEntry : Shell Unit := do
  let v ← Script.vars
  if v.found.active then pure ()
  else do
    let ok : Bool ← (Script.ask (Call.activate (v.found.id.getD [])) : Shell (Answer _))
    require ok "uefi_boot_entry_activate_failed"

/-- The order is written, if it is another one. -/
def writeOrder (desired : List Str) : Shell Unit := do
  let v ← Script.vars
  if v.reading.order ≠ desired then do
    let ok : Bool ← (Script.ask (Call.order desired) : Shell (Answer _))
    require ok "uefi_boot_order_update_failed"

/-- The old entry is deleted. -/
def deleteOld (old : Str) (desired : List Str) : Shell Unit := do
  let v ← Script.vars
  require (matchLabel v.reading v.found == sel.label) "uefi_boot_entry_readback_failed"
  let ok : Bool ← (Script.ask (Call.delete old) : Shell (Answer _))
  require ok "uefi_boot_entry_readback_failed"
  rereadEntries
  find sel
  let v ← Script.vars
  require ((v.reading.labels.lookup old).isNone && v.found.id.isSome && v.found.active &&
    matchLabel v.reading v.found == sel.label &&
    v.reading.order == desired) "uefi_boot_entry_readback_failed"

/-- The entry that was found is put into the order, and the old one is deleted. -/
def putInOrder (types : List (Str × Str)) (original : List Str) (old : Option Str)
    (isListed : Bool) : Shell Unit := do
  let v ← Script.vars
  let desired := desiredOrder types original (v.found.id.getD []) old isListed
  writeOrder desired
  rereadEntries
  find sel
  let v ← Script.vars
  require (v.found.id.isSome && v.found.active && v.reading.order == desired)
    "uefi_boot_entry_readback_failed"
  match old with
  | some old => deleteOld sel old desired
  | none => pure ()

/-- What comes behind the test for a loader that is registered. -/
def registerAs (types : List (Str × Str)) (original : List Str) (old : Option Str)
    (isListed : Bool) : Shell Unit := do
  writeReady
  ensureEntry sel
  activateEntry
  putInOrder sel types original old isListed

/-- `rootpxe_uefi_register_selected`. -/
def registerSelected : Shell Unit := do
  let v ← Script.vars
  let original := v.reading.order
  let types := typesOf v.reading.entries
  find sel
  let old ← chooseOld sel
  let v ← Script.vars
  let isListed := listed original v.found.id
  if isListed && v.found.active && old.isNone then pure ()
  else registerAs sel types original old isListed

/-- The two steps of `rootpxe_uefi_process_targets` that use the boot variables. -/
def register : Shell Unit := do
  rereadEntries
  registerSelected sel

/-! ### What the commands do -/

/-- What `efibootmgr` does to the boot variables. -/
def effect (fw : Firmware) : Sigma Answer → Firmware
  | ⟨.create .., some (e, k)⟩ => fw.create e k
  | ⟨.activate id, true⟩ => fw.activate id
  | ⟨.order items, true⟩ => fw.setOrder items
  | ⟨.delete id, true⟩ => fw.delete id
  | _ => fw

/-- What `efibootmgr` promises when it ends well: it prints the variables as they are, a new entry
has a number that was free and the label that it was given, and the numbers that are named have
entries. -/
def Documented (fw : Firmware) : Sigma Answer → Prop
  | ⟨.efibootmgrV, some text⟩ => text = fw.print
  | ⟨.create _ _ label _, some (e, _)⟩ => e.id ∉ fw.ids ∧ e.active = true ∧ e.label = label
  | ⟨.activate id, true⟩ => id ∈ fw.ids
  | ⟨.order items, true⟩ => ∀ i ∈ items, i ∈ fw.ids
  | ⟨.delete id, true⟩ => id ∈ fw.ids
  | _ => True

instance (fw : Firmware) (a : Sigma Answer) : Decidable (Documented fw a) :=
  match a with
  | ⟨.efibootmgrV, some text⟩ => inferInstanceAs (Decidable (text = fw.print))
  | ⟨.efibootmgrV, none⟩ => isTrue trivial
  | ⟨.remountRw, _⟩ => isTrue trivial
  | ⟨.create _ _ label _, some (e, _)⟩ =>
    inferInstanceAs (Decidable (e.id ∉ fw.ids ∧ e.active = true ∧ e.label = label))
  | ⟨.create .., none⟩ => isTrue trivial
  | ⟨.activate id, true⟩ => inferInstanceAs (Decidable (id ∈ fw.ids))
  | ⟨.activate _, false⟩ => isTrue trivial
  | ⟨.order items, true⟩ => inferInstanceAs (Decidable (∀ i ∈ items, i ∈ fw.ids))
  | ⟨.order _, false⟩ => isTrue trivial
  | ⟨.delete id, true⟩ => inferInstanceAs (Decidable (id ∈ fw.ids))
  | ⟨.delete _, false⟩ => isTrue trivial

/-- The commands end well; the entry that is made, and its place, are given. -/
def obedient (fw : Firmware) (made : BootEntry × ℕ) (seen : List (Sigma Answer)) :
    (c : Call) → Answer c
  | .efibootmgrV => some (seen.foldr (fun a fw => effect fw a) fw).print
  | .create .. => some made
  | .remountRw => true
  | .activate _ => true
  | .order _ => true
  | .delete _ => true

end Pxeos.Uefi
