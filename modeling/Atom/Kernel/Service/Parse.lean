import Mathlib.Data.String.Basic
import Atom.Kernel.Service.Manifest
import Atom.Lib.Str

/-!
# Services — reading the manifest

`parse_manifest` of `kernel/src/service_manager.rs` reads the TOML-like text of a boot manifest
a line at a time, each line trimmed.  Blank lines and `#` comments are skipped; `[service.NAME]`
opens the service `NAME`, and a second section of one name is refused; `key = value` sets the
`binary`, `capabilities` or `depends_on` of the service opened last.  A section that is not a
service's, a key-value line before any section or with no `=`, an unknown key and an array not
in brackets end the parse with the line's number.  After the last line, a service with no binary
and a text with no service are refused.

The model reads the text as the list of its characters, through the `str` methods of `Lib.Str`.
What the loop carries from line to line is a `ParseState`: the services read so far and the one
open.  It holds two facts as fields: the open service is declared, so the `expect` on `get_mut`
never fires, and every service is named by its key, as `ServiceSpec::new` names it.

`BootManifest.render` writes a manifest as text: a section line and three key-value lines for
each service.  Parser and printer meet at `BootManifest.Printable`: no name, binary or array
entry holds a line break, no array entry a comma, no binary is empty, and every service is named
by its key.

* `parseManifest_render`: a printable manifest is read back from its text.
* `parseManifest_printable`: every manifest `parse_manifest` accepts is printable, so its text
  reads back as it.
-/

namespace Atom

open Lib Lib.Str

/-- `ServiceSpec::new`. -/
def ServiceSpec.new (name : String) : ServiceSpec := ⟨name, "", [], []⟩

namespace BootManifest

/-- `services.insert(name, spec)`. -/
def insert (m : BootManifest) (name : String) (spec : ServiceSpec) : BootManifest :=
  ⟨SortedMap.insert name spec m.services, SortedMap.pairwise_insert m.sorted⟩

/-- `services.get_mut(name)`, with `f` applied to the service it finds. -/
def modify (m : BootManifest) (name : String) (f : ServiceSpec → ServiceSpec) : BootManifest :=
  ⟨KeyedList.update Prod.fst m.services name (fun e => (e.1, f e.2)),
    by rw [KeyedList.map_key_update (f := fun e : String × ServiceSpec => (e.1, f e.2)) fun _ => rfl]
       exact m.sorted⟩

@[simp] theorem services_insert (m : BootManifest) (name : String) (spec : ServiceSpec) :
    (m.insert name spec).services = SortedMap.insert name spec m.services := rfl

@[simp] theorem services_modify (m : BootManifest) (name : String) (f : ServiceSpec → ServiceSpec) :
    (m.modify name f).services = KeyedList.update Prod.fst m.services name (fun e => (e.1, f e.2)) :=
  rfl

theorem names_modify (m : BootManifest) (name : String) (f : ServiceSpec → ServiceSpec) :
    (m.modify name f).names = m.names := by
  rw [names, names, services_modify,
    KeyedList.map_key_update (f := fun e : String × ServiceSpec => (e.1, f e.2)) fun _ => rfl]

theorem ext_services {m m' : BootManifest} (h : m.services = m'.services) : m = m' := by
  cases m
  cases m'
  cases h
  rfl

end BootManifest

/-- What `parse_manifest`'s loop keeps from line to line: `services` and `current_service`. -/
structure ParseState where
  services : BootManifest
  currentService : Option String
  current_mem : ∀ name, currentService = some name → services.containsKey name = true
  named : ∀ e ∈ services.services, e.2.name = e.1

namespace ParseState

/-- The state before the first line. -/
def empty : ParseState :=
  ⟨⟨[], List.Pairwise.nil⟩, none, fun _ h => (by cases h), fun _ h => (by cases h)⟩

/-- A section `[service.NAME]` read: the service is inserted, and is the one open. -/
def addService (st : ParseState) (name : String) : ParseState where
  services := st.services.insert name (ServiceSpec.new name)
  currentService := some name
  current_mem := by
    rintro n ⟨⟩
    rw [BootManifest.containsKey_iff, BootManifest.names, BootManifest.services_insert]
    exact List.mem_toFinset.mpr (List.mem_map_of_mem (SortedMap.mem_insert_self _))
  named := by
    intro e he
    rw [BootManifest.services_insert] at he
    rcases SortedMap.mem_insert he with rfl | he
    · rfl
    · exact st.named e he

theorem nodupKeys (st : ParseState) : KeyedList.NodupKeys Prod.fst st.services.services :=
  st.services.sorted.imp ne_of_lt

/-- An assignment to a field of the service `name` other than its name. -/
def modify (st : ParseState) (name : String) (f : ServiceSpec → ServiceSpec)
    (hf : ∀ spec, (f spec).name = spec.name) : ParseState where
  services := st.services.modify name f
  currentService := st.currentService
  current_mem := by
    intro n hn
    rw [BootManifest.containsKey_iff, BootManifest.names_modify, ← BootManifest.containsKey_iff]
    exact st.current_mem n hn
  named := by
    rw [BootManifest.services_modify]
    exact KeyedList.forall_mem_update st.nodupKeys (fun e he _ => st.named e he)
      fun e he _ => (hf e.2).trans (st.named e he)

end ParseState

/-- `strip_prefix('"').and_then(|v| v.strip_suffix('"'))`, as `parse_string` and `parse_array`
both write it. -/
def unquote (t : List Char) : Option (List Char) :=
  (t.dropPrefix? ['"']).bind (·.dropSuffix? ['"'])

/-- `parse_key_value`: the two sides of the first `=`, trimmed. -/
def parseKeyValue (line : List Char) (lineNo : Nat) :
    Except ManifestError (List Char × List Char) :=
  match splitOnce '=' line with
  | some (key, value) => .ok (trim isWhitespace key, trim isWhitespace value)
  | none => .error (.orphanKeyValue lineNo (String.ofList line))

/-- `parse_string`: the value between its quotes, or the whole value when it is not quoted (the
warning logged then is left out). -/
def parseString (value : List Char) (_lineNo : Nat) : Except ManifestError String :=
  let trimmed := trim isWhitespace value
  match unquote trimmed with
  | some stripped => .ok (String.ofList stripped)
  | none => .ok (String.ofList trimmed)

/-- One turn of `parse_array`'s loop over the items: a blank item is skipped, another is kept
without its quotes, or as it is when it has none. -/
def parseItem (item : List Char) : Option String :=
  let itemTrimmed := trim isWhitespace item
  if itemTrimmed = [] then none
  else some (String.ofList ((unquote itemTrimmed).getD itemTrimmed))

/-- `parse_array`.  The slice `trimmed[1..trimmed.len() - 1]` drops the brackets, a byte each. -/
def parseArray (value : List Char) (lineNo : Nat) : Except ManifestError (List String) :=
  let trimmed := trim isWhitespace value
  if trimmed.head? ≠ some '[' ∨ trimmed.getLast? ≠ some ']' then
    .error (.invalidSection lineNo (String.ofList trimmed))
  else .ok ((((trimmed.drop 1).dropLast).splitOn ',').filterMap parseItem)

/-- A line that starts with `[`: `[service.NAME]` opens the service `NAME`.  The slice
`line[1..line.len() - 1]` drops the brackets, a byte each. -/
def parseSection (lineNo : Nat) (line : List Char) (st : ParseState) :
    Except ManifestError ParseState :=
  if line.getLast? ≠ some ']' then .error (.invalidSection lineNo (String.ofList line))
  else
    match ((line.drop 1).dropLast).dropPrefix? "service.".toList with
    | some name =>
        if st.services.containsKey (String.ofList name) then
          .error (.duplicateService (String.ofList name))
        else .ok (st.addService (String.ofList name))
    | none => .error (.invalidSection lineNo (String.ofList line))

/-- `match key { ... }`: the value of `key` set on the service `serviceName`. -/
def setKey (lineNo : Nat) (st : ParseState) (serviceName : String) (key value : List Char) :
    Except ManifestError ParseState :=
  if key = "binary".toList then do
    let binary ← parseString value lineNo
    pure (st.modify serviceName (fun spec => { spec with binary }) fun _ => rfl)
  else if key = "capabilities".toList then do
    let capabilities ← parseArray value lineNo
    pure (st.modify serviceName (fun spec => { spec with capabilities }) fun _ => rfl)
  else if key = "depends_on".toList then do
    let dependsOn ← parseArray value lineNo
    pure (st.modify serviceName (fun spec => { spec with dependsOn }) fun _ => rfl)
  else .error (.unknownKey (String.ofList key) lineNo)

/-- Any other line: `key = value` for the service opened last. -/
def parseEntry (lineNo : Nat) (line : List Char) (st : ParseState) :
    Except ManifestError ParseState :=
  match st.currentService with
  | none => .error (.orphanKeyValue lineNo (String.ofList line))
  | some serviceName => do
      let kv ← parseKeyValue line lineNo
      setKey lineNo st serviceName kv.1 kv.2

/-- The body of `parse_manifest`'s loop, for the trimmed line numbered `lineNo`. -/
def parseLine (lineNo : Nat) (line : List Char) (st : ParseState) :
    Except ManifestError ParseState :=
  if line = [] ∨ line.head? = some '#' then .ok st
  else if line.head? = some '[' then parseSection lineNo line st
  else parseEntry lineNo line st

/-- One turn of the loop over `text.lines().enumerate()`: the line `idx + 1`, trimmed. -/
def parseStep (st : ParseState) (e : List Char × Nat) : Except ManifestError ParseState :=
  parseLine (e.2 + 1) (trim isWhitespace e.1) st

/-- After the loop: the first service, in name order, with no binary is refused, then a
manifest with no service. -/
def checkServices (services : BootManifest) : Except ManifestError BootManifest :=
  match services.services.find? (fun e => e.2.binary.isEmpty) with
  | some e => .error (.missingBinary e.2.name)
  | none => if services.services = [] then .error .emptyManifest else .ok services

/-- `parse_manifest`. -/
def parseManifest (text : String) : Except ManifestError BootManifest := do
  let st ← (lines text.toList).zipIdx.foldlM parseStep ParseState.empty
  checkServices st.services

/-! ### Writing a manifest -/

/-- A string between quotes. -/
def renderString (s : String) : List Char := '"' :: s.toList ++ ['"']

/-- An array of strings: `["a","b"]`. -/
def renderArray (items : List String) : List Char :=
  '[' :: [','].intercalate (items.map renderString) ++ [']']

/-- The lines of a service: its section, then its three keys. -/
def ServiceSpec.renderLines (spec : ServiceSpec) : List (List Char) :=
  ["[service.".toList ++ spec.name.toList ++ [']'],
    "binary = ".toList ++ renderString spec.binary,
    "capabilities = ".toList ++ renderArray spec.capabilities,
    "depends_on = ".toList ++ renderArray spec.dependsOn]

/-- The text of a manifest: the lines of its services, in name order, each ended by `'\n'`. -/
def BootManifest.render (m : BootManifest) : String :=
  String.ofList ((m.services.flatMap fun e => e.2.renderLines).flatMap (· ++ ['\n']))

/-- A service whose fields each sit on one line, with no comma in an array entry. -/
structure ServiceSpec.OnOneLine (spec : ServiceSpec) : Prop where
  name : '\n' ∉ spec.name.toList
  binary : '\n' ∉ spec.binary.toList
  capabilities : ∀ c ∈ spec.capabilities, '\n' ∉ c.toList ∧ ',' ∉ c.toList
  dependsOn : ∀ d ∈ spec.dependsOn, '\n' ∉ d.toList ∧ ',' ∉ d.toList

/-- A manifest that `render` writes and `parse_manifest` reads back. -/
structure BootManifest.Printable (m : BootManifest) : Prop where
  ne_nil : m.services ≠ []
  named : ∀ e ∈ m.services, e.2.name = e.1
  binary_ne : ∀ e ∈ m.services, e.2.binary ≠ ""
  onOneLine : ∀ e ∈ m.services, e.2.OnOneLine

/-! ### The lines `render` writes, read one at a time -/

namespace ParseState

@[simp] theorem services_addService (st : ParseState) (name : String) :
    (st.addService name).services.services =
      SortedMap.insert name (ServiceSpec.new name) st.services.services := rfl

@[simp] theorem currentService_addService (st : ParseState) (name : String) :
    (st.addService name).currentService = some name := rfl

@[simp] theorem services_modify (st : ParseState) (name : String) (f : ServiceSpec → ServiceSpec)
    (hf : ∀ spec, (f spec).name = spec.name) :
    (st.modify name f hf).services.services =
      KeyedList.update Prod.fst st.services.services name (fun e => (e.1, f e.2)) := rfl
@[simp] theorem currentService_modify (st : ParseState) (name : String)
    (f : ServiceSpec → ServiceSpec) (hf : ∀ spec, (f spec).name = spec.name) :
    (st.modify name f hf).currentService = st.currentService := rfl


end ParseState

/-- A line that starts and ends with characters other than white space is its own `trim`. -/
theorem trim_eq_self_of_ends {l : List Char} {a b : Char} (hh : l.head? = some a)
    (hl : l.getLast? = some b) (ha : isWhitespace a = false) (hb : isWhitespace b = false) :
    trim isWhitespace l = l := by
  refine trim_eq_self (fun c hc => ?_) (fun c hc => ?_)
  · rw [hh, Option.mem_some_iff] at hc
    exact hc ▸ ha
  · rw [hl, Option.mem_some_iff] at hc
    exact hc ▸ hb

@[simp] theorem head?_renderString (s : String) : (renderString s).head? = some '"' := rfl

@[simp] theorem getLast?_renderString (s : String) : (renderString s).getLast? = some '"' := by
  rw [renderString, List.getLast?_concat]

@[simp] theorem head?_renderArray (items : List String) : (renderArray items).head? = some '[' :=
  rfl

@[simp] theorem getLast?_renderArray (items : List String) :
    (renderArray items).getLast? = some ']' := by
  rw [renderArray, List.getLast?_concat]

theorem unquote_renderString (s : String) : unquote (renderString s) = some s.toList := by
  have hpre : (['"'] ++ (s.toList ++ ['"'])).dropPrefix? ['"'] = some (s.toList ++ ['"']) :=
    List.dropPrefix?_append_of_beq _ (by decide)
  have hsuf : (s.toList ++ ['"']).dropSuffix? ['"'] = some s.toList :=
    List.dropSuffix?_eq_some_iff.mpr ⟨['"'], rfl, by decide⟩
  rw [unquote, renderString, ← List.singleton_append, List.append_assoc, hpre, Option.bind_some,
    hsuf]

theorem parseString_renderString (s : String) (n : Nat) :
    parseString (renderString s) n = .ok s := by
  rw [parseString, trim_eq_self_of_ends (head?_renderString s) (getLast?_renderString s) rfl rfl]
  simp only [unquote_renderString, String.ofList_toList]

theorem parseItem_renderString (s : String) : parseItem (renderString s) = some s := by
  rw [parseItem, trim_eq_self_of_ends (head?_renderString s) (getLast?_renderString s) rfl rfl,
    if_neg (by simp [renderString]), unquote_renderString, Option.getD_some, String.ofList_toList]

/-- An array whose entries hold no comma is read back. -/
theorem parseArray_renderArray {items : List String} (h : ∀ c ∈ items, ',' ∉ c.toList) (n : Nat) :
    parseArray (renderArray items) n = .ok items := by
  rw [parseArray, trim_eq_self_of_ends (head?_renderArray items) (getLast?_renderArray items) rfl rfl,
    if_neg (by simp)]
  have hinner : ((renderArray items).drop 1).dropLast = [','].intercalate (items.map renderString) := by
    simp [renderArray]
  rw [hinner]
  congr 1
  by_cases hne : items = []
  · rw [hne]
    rfl
  · -- no entry holds a comma, so the commas cut the array back into its entries
    have hsep : ∀ l ∈ items.map renderString, ',' ∉ l := by
      intro l hl
      obtain ⟨c, hc, rfl⟩ := List.mem_map.mp hl
      simpa [renderString] using h c hc
    rw [List.splitOn_intercalate ',' hsep (by simpa using hne), List.filterMap_map]
    exact (List.filterMap_congr fun c _ => parseItem_renderString c).trans List.filterMap_some

/-- How `parse_manifest` reads a line by its first character. -/
theorem parseLine_of_head_bracket {line : List Char} (hh : line.head? = some '[') (n : Nat)
    (st : ParseState) : parseLine n line st = parseSection n line st := by
  have hne : line ≠ [] := fun h => by rw [h] at hh; cases hh
  rw [parseLine, if_neg (by rw [hh]; simp [hne]), if_pos hh]

theorem parseLine_of_head {line : List Char} {c : Char} (hh : line.head? = some c) (hc : c ≠ '#')
    (hc' : c ≠ '[') (n : Nat) (st : ParseState) : parseLine n line st = parseEntry n line st := by
  have hne : line ≠ [] := fun h => by rw [h] at hh; cases hh
  rw [parseLine, if_neg (by rw [hh]; simp [hne, hc]), if_neg (by rw [hh]; simp [hc'])]

/-- The section line `render` writes opens its service, when no service of that name is
declared yet. -/
theorem parseStep_section {st : ParseState} {name : String}
    (hfresh : st.services.containsKey name = false) (i : Nat) :
    parseStep st ("[service.".toList ++ name.toList ++ [']'], i) = .ok (st.addService name) := by
  have hpre : "[service.".toList = '[' :: "service.".toList := by decide
  have hhead : ("[service.".toList ++ name.toList ++ [']']).head? = some '[' := by
    rw [hpre]
    rfl
  have hlast : ("[service.".toList ++ name.toList ++ [']']).getLast? = some ']' :=
    List.getLast?_concat
  have hname : ((("[service.".toList ++ name.toList ++ [']']).drop 1).dropLast).dropPrefix?
      "service.".toList = some name.toList := by
    rw [hpre, List.cons_append, List.cons_append, List.drop_one, List.tail_cons,
      List.dropLast_concat]
    exact List.dropPrefix?_append_of_beq _ (by simp)
  rw [parseStep, trim_eq_self_of_ends hhead hlast rfl rfl, parseLine_of_head_bracket hhead,
    parseSection, if_neg (not_not.mpr hlast), hname]
  simp only [String.ofList_toList, hfresh, Bool.false_eq_true, if_false]

/-- A key-value line `key = value` as `render` writes it, read for the open service. -/
theorem parseStep_keyValue {st : ParseState} {name : String} (hcur : st.currentService = some name)
    {key value : List Char} {c a b : Char} (hkey : key.head? = some c)
    (hc : c ≠ '#' ∧ c ≠ '[' ∧ isWhitespace c = false) (hsep : '=' ∉ key)
    (hkt : trim isWhitespace (key ++ [' ']) = key) (hvh : value.head? = some a)
    (hvl : value.getLast? = some b) (ha : isWhitespace a = false) (hb : isWhitespace b = false)
    (i : Nat) :
    parseStep st (key ++ ' ' :: '=' :: ' ' :: value, i) = setKey (i + 1) st name key value := by
  have hhead : (key ++ ' ' :: '=' :: ' ' :: value).head? = some c := by
    simp [List.head?_append, hkey]
  have hlast : (key ++ ' ' :: '=' :: ' ' :: value).getLast? = some b := by
    rw [show key ++ ' ' :: '=' :: ' ' :: value = (key ++ [' ', '=', ' ']) ++ value by simp,
      List.getLast?_append, hvl]
    rfl
  -- the first `=` is the one after the key, and a blank on each side of it is trimmed
  have hkv : parseKeyValue (key ++ ' ' :: '=' :: ' ' :: value) (i + 1) = .ok (key, value) := by
    have hsep' : '=' ∉ key ++ [' '] := by simp [hsep]
    have hv : trim isWhitespace ([' '] ++ value) = value :=
      trim_append_of_forall (fun d hd => by rw [List.mem_singleton.mp hd]; rfl)
        (fun d hd => by rw [hvh, Option.mem_some_iff] at hd; exact hd ▸ ha)
        (fun d hd => by rw [hvl, Option.mem_some_iff] at hd; exact hd ▸ hb)
    rw [parseKeyValue, show key ++ ' ' :: '=' :: ' ' :: value = (key ++ [' ']) ++ '=' :: ([' '] ++ value)
      by simp, splitOnce_append_cons hsep']
    simp only [hkt, hv]
  rw [parseStep, trim_eq_self_of_ends hhead hlast hc.2.2 hb, parseLine_of_head hhead hc.1 hc.2.1,
    parseEntry, hcur]
  simp only [hkv]
  rfl

theorem parseStep_binaryLine {st : ParseState} {name : String}
    (hcur : st.currentService = some name) (b : String) (i : Nat) :
    parseStep st ("binary = ".toList ++ renderString b, i) =
      .ok (st.modify name (fun spec => { spec with binary := b }) fun _ => rfl) := by
  rw [show "binary = ".toList = "binary".toList ++ [' ', '=', ' '] by decide, List.append_assoc,
    List.cons_append, List.cons_append, List.cons_append, List.nil_append, parseStep_keyValue hcur (c := 'b') (by decide) (by decide) (by decide) (by decide)
      (head?_renderString b) (getLast?_renderString b) rfl rfl,
    setKey, if_pos rfl, parseString_renderString]
  rfl

theorem parseStep_capabilitiesLine {st : ParseState} {name : String}
    (hcur : st.currentService = some name) {caps : List String} (h : ∀ c ∈ caps, ',' ∉ c.toList)
    (i : Nat) :
    parseStep st ("capabilities = ".toList ++ renderArray caps, i) =
      .ok (st.modify name (fun spec => { spec with capabilities := caps }) fun _ => rfl) := by
  rw [show "capabilities = ".toList = "capabilities".toList ++ [' ', '=', ' '] by decide,
    List.append_assoc, List.cons_append, List.cons_append, List.cons_append, List.nil_append,
    parseStep_keyValue hcur (c := 'c') (by decide) (by decide) (by decide) (by decide)
      (head?_renderArray caps) (getLast?_renderArray caps) rfl rfl,
    setKey, if_neg (by decide), if_pos rfl, parseArray_renderArray h]
  rfl

theorem parseStep_dependsOnLine {st : ParseState} {name : String}
    (hcur : st.currentService = some name) {deps : List String} (h : ∀ d ∈ deps, ',' ∉ d.toList)
    (i : Nat) :
    parseStep st ("depends_on = ".toList ++ renderArray deps, i) =
      .ok (st.modify name (fun spec => { spec with dependsOn := deps }) fun _ => rfl) := by
  rw [show "depends_on = ".toList = "depends_on".toList ++ [' ', '=', ' '] by decide,
    List.append_assoc, List.cons_append, List.cons_append, List.cons_append, List.nil_append,
    parseStep_keyValue hcur (c := 'd') (by decide) (by decide) (by decide) (by decide)
      (head?_renderArray deps) (getLast?_renderArray deps) rfl rfl,
    setKey, if_neg (by decide), if_neg (by decide), if_pos rfl, parseArray_renderArray h]
  rfl

/-- `get_mut` on the last of services in increasing order of name. -/
theorem update_concat {pre : List (String × ServiceSpec)} {name : String}
    (hlt : ∀ k ∈ pre.map Prod.fst, k < name) (s : ServiceSpec)
    (g : String × ServiceSpec → String × ServiceSpec) :
    KeyedList.update Prod.fst (pre ++ [(name, s)]) name g = pre ++ [g (name, s)] := by
  rw [KeyedList.update_append_of_forall_ne fun e he => ne_of_lt (hlt e.1 (List.mem_map_of_mem he)),
    KeyedList.update_cons_of_key rfl]

/-- **A service's lines.**  The four lines `render` writes for a service whose name is above
every name read so far add the service, as it is, after them. -/
theorem foldlM_renderLines {st : ParseState} {spec : ServiceSpec}
    (hcaps : ∀ c ∈ spec.capabilities, ',' ∉ c.toList) (hdeps : ∀ d ∈ spec.dependsOn, ',' ∉ d.toList)
    (hlt : ∀ k ∈ st.services.services.map Prod.fst, k < spec.name) (i : Nat) :
    ∃ st', (spec.renderLines.zipIdx i).foldlM parseStep st = .ok st' ∧
      st'.services.services = st.services.services ++ [(spec.name, spec)] := by
  have hfresh : st.services.containsKey spec.name = false := by
    rw [Bool.eq_false_iff, ne_eq, BootManifest.containsKey_iff, BootManifest.names,
      List.mem_toFinset]
    exact fun h => lt_irrefl _ (hlt _ h)
  -- the section opens the service; each key line then sets one of its fields
  set st₁ := st.addService spec.name
  set st₂ := st₁.modify spec.name (fun s => { s with binary := spec.binary }) fun _ => rfl
  set st₃ := st₂.modify spec.name (fun s => { s with capabilities := spec.capabilities }) fun _ => rfl
  have h₁ := parseStep_section hfresh i
  have h₂ := parseStep_binaryLine (rfl : st₁.currentService = some spec.name) spec.binary (i + 1)
  have h₃ := parseStep_capabilitiesLine (rfl : st₂.currentService = some spec.name) hcaps (i + 1 + 1)
  have h₄ := parseStep_dependsOnLine (rfl : st₃.currentService = some spec.name) hdeps
    (i + 1 + 1 + 1)
  refine ⟨st₃.modify spec.name (fun s => { s with dependsOn := spec.dependsOn }) fun _ => rfl, ?_, ?_⟩
  · rw [ServiceSpec.renderLines, List.zipIdx_cons, Loop.foldlM_cons_of_ok h₁, List.zipIdx_cons,
      Loop.foldlM_cons_of_ok h₂, List.zipIdx_cons, Loop.foldlM_cons_of_ok h₃, List.zipIdx_cons,
      Loop.foldlM_cons_of_ok h₄]
    rfl
  · simp only [st₃, st₂, st₁, ParseState.services_modify, ParseState.services_addService,
      SortedMap.insert_of_forall_lt hlt, update_concat hlt]
    rfl

/-- The lines of services in increasing order of name, each named by its key, read after
services below them: each service is added in turn, as it is. -/
theorem foldlM_flatMap_renderLines :
    ∀ {rest : List (String × ServiceSpec)} (st : ParseState) (i : Nat),
      ((st.services.services ++ rest).map Prod.fst).Pairwise (· < ·) →
      (∀ e ∈ rest, e.2.name = e.1 ∧ e.2.OnOneLine) →
      ∃ st', ((rest.flatMap fun e => e.2.renderLines).zipIdx i).foldlM parseStep st = .ok st' ∧
        st'.services.services = st.services.services ++ rest
  | [], st, _, _, _ => ⟨st, rfl, (List.append_nil _).symm⟩
  | e :: rest, st, i, hsorted, hrest => by
      obtain ⟨hname, hline⟩ := hrest e List.mem_cons_self
      -- every name read so far is below the next one
      have hlt : ∀ k ∈ st.services.services.map Prod.fst, k < e.2.name := by
        rw [List.map_append, List.pairwise_append] at hsorted
        intro k hk
        exact hname ▸ hsorted.2.2 k hk e.1 (List.mem_map_of_mem List.mem_cons_self)
      obtain ⟨st₁, h₁, hs₁⟩ := foldlM_renderLines (fun c hc => (hline.capabilities c hc).2)
        (fun d hd => (hline.dependsOn d hd).2) hlt i
      rw [show (e.2.name, e.2) = e by rw [hname]] at hs₁
      obtain ⟨st', h', hs'⟩ := foldlM_flatMap_renderLines st₁ (i + e.2.renderLines.length)
        (by rw [hs₁, List.append_assoc]; exact hsorted)
        (fun e' he' => hrest e' (List.mem_cons_of_mem e he'))
      refine ⟨st', ?_, by rw [hs', hs₁, List.append_assoc, List.singleton_append]⟩
      rw [List.flatMap_cons, List.zipIdx_append, Loop.foldlM_append_of_ok h₁, h']

theorem not_mem_renderString {x : Char} {s : String} (hx : x ≠ '"') (h : x ∉ s.toList) :
    x ∉ renderString s := by
  simp [renderString, hx, h]

theorem not_mem_renderArray {x : Char} {items : List String}
    (hx : x ≠ '"' ∧ x ≠ ',' ∧ x ≠ '[' ∧ x ≠ ']') (h : ∀ c ∈ items, x ∉ c.toList) :
    x ∉ renderArray items := by
  intro hmem
  simp only [renderArray, List.mem_append, List.mem_cons, List.not_mem_nil, or_false] at hmem
  rcases hmem with (rfl | hmem) | rfl
  · exact hx.2.2.1 rfl
  · rcases mem_of_mem_intercalate hmem with rfl | ⟨l, hl, hxl⟩
    · exact hx.2.1 rfl
    · obtain ⟨c, hc, rfl⟩ := List.mem_map.mp hl
      exact not_mem_renderString hx.1 (h c hc) hxl
  · exact hx.2.2.2 rfl

/-- The text of services on one line each is cut back into their lines. -/
theorem lines_render (m : BootManifest) (hp : ∀ e ∈ m.services, e.2.OnOneLine) :
    lines m.render.toList = m.services.flatMap fun e => e.2.renderLines := by
  rw [BootManifest.render, String.toList_ofList]
  refine lines_flatMap (fun l hl => ?_) (fun l hl => ?_)
  · obtain ⟨e, he, hl⟩ := List.mem_flatMap.mp hl
    have hline := hp e he
    have hitem : ∀ items : List String, (∀ c ∈ items, '\n' ∉ c.toList ∧ ',' ∉ c.toList) →
        '\n' ∉ renderArray items := fun items h =>
      not_mem_renderArray (by decide) fun c hc => (h c hc).1
    simp only [ServiceSpec.renderLines, List.mem_cons, List.not_mem_nil, or_false] at hl
    rcases hl with rfl | rfl | rfl | rfl
    · simp [hline.name]
    · simp [not_mem_renderString (by decide) hline.binary]
    · simp [hitem _ hline.capabilities]
    · simp [hitem _ hline.dependsOn]
  · -- each line ends in a bracket or a quote
    obtain ⟨e, -, hl⟩ := List.mem_flatMap.mp hl
    simp only [ServiceSpec.renderLines, List.mem_cons, List.not_mem_nil, or_false] at hl
    rcases hl with rfl | rfl | rfl | rfl
    · rw [List.getLast?_concat]
      decide
    · rw [List.getLast?_append, getLast?_renderString, Option.some_or]
      decide
    · rw [List.getLast?_append, getLast?_renderArray, Option.some_or]
      decide
    · rw [List.getLast?_append, getLast?_renderArray, Option.some_or]
      decide

/-- What the checks after the loop let through: a manifest with a service, and a binary for
each. -/
theorem checkServices_eq_ok_iff {s m : BootManifest} :
    checkServices s = .ok m ↔ m = s ∧ s.services ≠ [] ∧ ∀ e ∈ s.services, e.2.binary ≠ "" := by
  unfold checkServices
  cases hfind : s.services.find? (fun e => e.2.binary.isEmpty) with
  | some e =>
      have he := List.find?_some hfind
      have hmem := List.mem_of_find?_eq_some hfind
      simp only [String.isEmpty_iff] at he
      exact iff_of_false (fun h => by cases h) fun ⟨_, _, hb⟩ => hb e hmem he
  | none =>
      have hb : ∀ e ∈ s.services, e.2.binary ≠ "" := fun e he h =>
        List.find?_eq_none.mp hfind e he (String.isEmpty_iff.mpr h)
      by_cases hne : s.services = []
      · rw [if_pos hne]
        exact iff_of_false (fun h => by cases h) fun ⟨_, h, _⟩ => h hne
      · rw [if_neg hne]
        exact ⟨fun h => by cases h; exact ⟨rfl, hne, hb⟩, fun ⟨h, _⟩ => h ▸ rfl⟩

/-- **A printable manifest is read back from its text.** -/
theorem parseManifest_render (m : BootManifest) (hm : m.Printable) :
    parseManifest m.render = .ok m := by
  obtain ⟨st, hfold, hst⟩ := foldlM_flatMap_renderLines ParseState.empty 0 m.sorted
    fun e he => ⟨hm.named e he, hm.onOneLine e he⟩
  have hservices : st.services = m := BootManifest.ext_services hst
  rw [parseManifest, lines_render m hm.onOneLine, hfold]
  exact checkServices_eq_ok_iff.mpr ⟨hservices.symm, hservices ▸ hm.ne_nil,
    hservices ▸ hm.binary_ne⟩

theorem printable_embedded : BootManifest.embedded.Printable where
  ne_nil := by decide
  named := by decide
  binary_ne := by decide
  onOneLine := by
    intro e he
    simp only [BootManifest.embedded, List.mem_cons, List.not_mem_nil, or_false] at he
    rcases he with rfl | rfl | rfl <;> exact ⟨by decide, by decide, by decide, by decide⟩

theorem parseManifest_render_embedded :
    BootManifest.embedded.Printable ∧
      parseManifest BootManifest.embedded.render = .ok BootManifest.embedded :=
  ⟨printable_embedded, parseManifest_render _ printable_embedded⟩

/-! ### What the parser accepts -/

instance : DecidableEq BootManifest := fun m m' =>
  decidable_of_iff (m.services = m'.services) ⟨BootManifest.ext_services, congrArg _⟩

theorem unquote_sublist {t u : List Char} (h : unquote t = some u) : u.Sublist t := by
  obtain ⟨t₁, hpre, hsuf⟩ := Option.bind_eq_some_iff.mp h
  obtain ⟨p, rfl, -⟩ := List.dropPrefix?_eq_some_iff.mp hpre
  obtain ⟨s, rfl, -⟩ := List.dropSuffix?_eq_some_iff.mp hsuf
  exact (List.sublist_append_left u s).trans (List.sublist_append_right p _)

theorem parseKeyValue_ok {line : List Char} {n : Nat} {kv : List Char × List Char}
    (h : parseKeyValue line n = .ok kv) : kv.2.Sublist line := by
  unfold parseKeyValue at h
  cases hs : splitOnce '=' line with
  | none =>
      rw [hs] at h
      cases h
  | some kv' =>
      rw [hs] at h
      cases h
      rw [eq_of_splitOnce hs]
      exact (trim_sublist kv'.2).trans ((List.sublist_cons_self _ _).trans
        (List.sublist_append_right _ _))

theorem parseString_ok {value : List Char} {n : Nat} {s : String}
    (h : parseString value n = .ok s) : s.toList.Sublist value := by
  unfold parseString at h
  dsimp only at h
  cases hu : unquote (trim isWhitespace value) with
  | none =>
      rw [hu] at h
      cases h
      rw [String.toList_ofList]
      exact trim_sublist value
  | some u =>
      rw [hu] at h
      cases h
      rw [String.toList_ofList]
      exact (unquote_sublist hu).trans (trim_sublist value)

theorem parseItem_some {item : List Char} {s : String} (h : parseItem item = some s) :
    s.toList.Sublist item := by
  unfold parseItem at h
  dsimp only at h
  split_ifs at h
  cases h
  rw [String.toList_ofList]
  refine List.Sublist.trans ?_ (trim_sublist (p := isWhitespace) item)
  cases hu : unquote (trim isWhitespace item) with
  | none => exact List.Sublist.refl _
  | some u => exact unquote_sublist hu

/-- The entries of an array are pieces of its value, with no comma. -/
theorem parseArray_ok {value : List Char} {n : Nat} {items : List String}
    (h : parseArray value n = .ok items) :
    ∀ s ∈ items, s.toList.Sublist value ∧ ',' ∉ s.toList := by
  unfold parseArray at h
  dsimp only at h
  split_ifs at h
  cases h
  intro s hs
  obtain ⟨item, hitem, hparse⟩ := List.mem_filterMap.mp hs
  obtain ⟨hsub, hcomma⟩ := sublist_of_mem_splitOn hitem
  have hs' := parseItem_some hparse
  exact ⟨hs'.trans (hsub.trans ((List.dropLast_sublist _).trans
    ((List.drop_sublist 1 _).trans (trim_sublist value)))), fun hc => hcomma (hs'.subset hc)⟩

/-- What a key-value line can do: set the binary, the capabilities or the dependencies of the
service open, to pieces of its value. -/
theorem setKey_ok {n : Nat} {st st' : ParseState} {name : String} {key value : List Char}
    (h : setKey n st name key value = .ok st') :
    (∃ b : String, b.toList.Sublist value ∧
      st' = st.modify name (fun spec => { spec with binary := b }) fun _ => rfl) ∨
    (∃ caps : List String, (∀ c ∈ caps, c.toList.Sublist value ∧ ',' ∉ c.toList) ∧
      st' = st.modify name (fun spec => { spec with capabilities := caps }) fun _ => rfl) ∨
    (∃ deps : List String, (∀ d ∈ deps, d.toList.Sublist value ∧ ',' ∉ d.toList) ∧
      st' = st.modify name (fun spec => { spec with dependsOn := deps }) fun _ => rfl) := by
  unfold setKey at h
  split_ifs at h
  · obtain ⟨b, hb, hpure⟩ := Loop.bind_eq_ok.mp h
    cases hpure
    exact .inl ⟨b, parseString_ok hb, rfl⟩
  · obtain ⟨caps, hcaps, hpure⟩ := Loop.bind_eq_ok.mp h
    cases hpure
    exact .inr (.inl ⟨caps, parseArray_ok hcaps, rfl⟩)
  · obtain ⟨deps, hdeps, hpure⟩ := Loop.bind_eq_ok.mp h
    cases hpure
    exact .inr (.inr ⟨deps, parseArray_ok hdeps, rfl⟩)

theorem parseSection_ok {n : Nat} {line : List Char} {st st' : ParseState}
    (h : parseSection n line st = .ok st') :
    ∃ name : String, name.toList.Sublist line ∧ st' = st.addService name := by
  unfold parseSection at h
  split_ifs at h
  split at h
  · rename_i name hname
    split_ifs at h
    cases h
    obtain ⟨p, hp, -⟩ := List.dropPrefix?_eq_some_iff.mp hname
    refine ⟨String.ofList name, ?_, rfl⟩
    rw [String.toList_ofList]
    exact (List.sublist_append_right p name).trans (hp ▸ (List.dropLast_sublist _).trans
      (List.drop_sublist 1 line))
  · cases h

/-- **What a line can do.**  A line read leaves the state as it was, opens a service named by a
piece of it, or sets a field of the open service to pieces of it. -/
theorem parseLine_ok {n : Nat} {line : List Char} {st st' : ParseState}
    (h : parseLine n line st = .ok st') :
    st' = st ∨ (∃ name : String, name.toList.Sublist line ∧ st' = st.addService name) ∨
    ∃ name, (∃ b : String, b.toList.Sublist line ∧
      st' = st.modify name (fun spec => { spec with binary := b }) fun _ => rfl) ∨
    (∃ caps : List String, (∀ c ∈ caps, c.toList.Sublist line ∧ ',' ∉ c.toList) ∧
      st' = st.modify name (fun spec => { spec with capabilities := caps }) fun _ => rfl) ∨
    (∃ deps : List String, (∀ d ∈ deps, d.toList.Sublist line ∧ ',' ∉ d.toList) ∧
      st' = st.modify name (fun spec => { spec with dependsOn := deps }) fun _ => rfl) := by
  unfold parseLine at h
  split_ifs at h
  · cases h
    exact .inl rfl
  · exact .inr (.inl (parseSection_ok h))
  · unfold parseEntry at h
    split at h
    · cases h
    · rename_i name _
      obtain ⟨kv, hkv, hset⟩ := Loop.bind_eq_ok.mp h
      have hv := parseKeyValue_ok hkv
      refine .inr (.inr ⟨name, ?_⟩)
      rcases setKey_ok hset with ⟨b, hb, rfl⟩ | ⟨caps, hcaps, rfl⟩ | ⟨deps, hdeps, rfl⟩
      · exact .inl ⟨b, hb.trans hv, rfl⟩
      · exact .inr (.inl ⟨caps, fun c hc => ⟨(hcaps c hc).1.trans hv, (hcaps c hc).2⟩, rfl⟩)
      · exact .inr (.inr ⟨deps, fun d hd => ⟨(hdeps d hd).1.trans hv, (hdeps d hd).2⟩, rfl⟩)

/-- A field set from a line with no line break keeps every service on one line. -/
theorem onOneLine_modify {st : ParseState} (hi : ∀ e ∈ st.services.services, e.2.OnOneLine)
    {name : String} {f : ServiceSpec → ServiceSpec} (hf : ∀ spec, (f spec).name = spec.name)
    (hfo : ∀ spec, spec.OnOneLine → (f spec).OnOneLine) :
    ∀ e ∈ (st.modify name f hf).services.services, e.2.OnOneLine := by
  rw [ParseState.services_modify]
  exact KeyedList.forall_mem_update st.nodupKeys (fun e he _ => hi e he)
    fun e he _ => hfo e.2 (hi e he)

/-- **A line keeps every service on one line.** -/
theorem onOneLine_parseLine {n : Nat} {line : List Char} {st st' : ParseState}
    (h : parseLine n line st = .ok st') (hline : '\n' ∉ line)
    (hi : ∀ e ∈ st.services.services, e.2.OnOneLine) :
    ∀ e ∈ st'.services.services, e.2.OnOneLine := by
  have hnot : ∀ {l : List Char}, l.Sublist line → '\n' ∉ l := fun hsub hmem =>
    hline (hsub.subset hmem)
  rcases parseLine_ok h with rfl | ⟨name, hname, rfl⟩ |
      ⟨_, ⟨b, hb, rfl⟩ | ⟨caps, hcaps, rfl⟩ | ⟨deps, hdeps, rfl⟩⟩
  · exact hi
  · -- a new service: its name is a piece of the line, its other fields empty
    intro e he
    rw [ParseState.services_addService] at he
    rcases SortedMap.mem_insert he with rfl | he
    · exact ⟨hnot hname, by simp [ServiceSpec.new], by simp [ServiceSpec.new],
        by simp [ServiceSpec.new]⟩
    · exact hi e he
  · exact onOneLine_modify hi _ fun _ hs => ⟨hs.name, hnot hb, hs.capabilities, hs.dependsOn⟩
  · exact onOneLine_modify hi _ fun _ hs =>
      ⟨hs.name, hs.binary, fun c hc => ⟨hnot (hcaps c hc).1, (hcaps c hc).2⟩, hs.dependsOn⟩
  · exact onOneLine_modify hi _ fun _ hs =>
      ⟨hs.name, hs.binary, hs.capabilities, fun d hd => ⟨hnot (hdeps d hd).1, (hdeps d hd).2⟩⟩

/-- **What `parse_manifest` accepts is printable**: a service, a binary for each, every service
named by its key, and names, binaries and array entries that each sit on one line, the entries
with no comma. -/
theorem parseManifest_printable {text : String} {m : BootManifest}
    (h : parseManifest text = .ok m) : m.Printable := by
  obtain ⟨st, hfold, hcheck⟩ := Loop.bind_eq_ok.mp h
  obtain ⟨rfl, hne, hbin⟩ := checkServices_eq_ok_iff.mp hcheck
  -- every line the loop reads is a trimmed line of the text, with no line break
  have hone : ∀ e ∈ st.services.services, e.2.OnOneLine :=
    Loop.foldlM_ok_induct (fun st : ParseState => ∀ e ∈ st.services.services, e.2.OnOneLine)
      (fun e he _ _ hs hstep => onOneLine_parseLine hstep (fun hmem =>
        not_mem_of_mem_lines (List.fst_mem_of_mem_zipIdx he) ((trim_sublist e.1).subset hmem)) hs)
      hfold fun _ he => absurd he List.not_mem_nil
  exact ⟨hne, st.named, hbin, hone⟩

theorem parseManifest_printable_commented :
    parseManifest "# boot\n\n[service.a]\nbinary = x\ncapabilities = [ \"c\", , d ]\n" =
        .ok ⟨[("a", ⟨"a", "x", ["c", "d"], []⟩)], by decide⟩ ∧
      BootManifest.Printable ⟨[("a", ⟨"a", "x", ["c", "d"], []⟩)], by decide⟩ :=
  have h : parseManifest "# boot\n\n[service.a]\nbinary = x\ncapabilities = [ \"c\", , d ]\n" =
      .ok ⟨[("a", ⟨"a", "x", ["c", "d"], []⟩)], by decide⟩ := by decide
  ⟨h, parseManifest_printable h⟩

end Atom
