import PartnerChains.Algorithm.ConfigFile

/-!
# Fields of configuration files are independent cells

A save changes nothing but what lies under the path of its field. It needs a file that can be
written, whose value is an object or null, and a value that can be read again at the end of the
path.
-/

namespace PartnerChains.Cli

variable {path other : List String} {json updated tree value member : Json} {field : String}

/-! ## One name -/

theorem objectMember_cases (json : Json) (field : String) :
    objectMember json field = .object [] ∨
      json.get field = some (objectMember json field) ∧ (objectMember json field).isObject := by
  cases h : (json.get field).filter Json.isObject with
  | none => exact .inl (by simp [objectMember, h])
  | some member => exact .inr (by simpa [objectMember, h] using Option.filter_eq_some_iff.mp h)

theorem isObject_objectMember (json : Json) (field : String) :
    (objectMember json field).isObject := by
  rcases objectMember_cases json field with hempty | ⟨-, hobject⟩
  · rw [hempty]
    rfl
  · exact hobject

theorem objectMember_of_get (h : json.get field = some member) (hobject : member.isObject) :
    objectMember json field = member := by
  simp [objectMember, h, Option.filter, hobject]

theorem depth_objectMember_le (json : Json) (field : String) :
    (objectMember json field).depth ≤ max 1 (json.depth - 1) := by
  rcases objectMember_cases json field with hempty | ⟨hget, -⟩
  · simp [hempty, Json.depth, Json.depthOfMembers]
  · have hdepth := Json.depth_lt_of_get hget
    omega

/-- The first of the two assignments to a name leaves no trace. -/
theorem saveAt_cons_eq_ok_iff :
    saveAt (.ok tree) (field :: path) json = .ok updated ↔
      ∃ inner, saveAt (.ok tree) path (objectMember json field) = .ok inner ∧
        json.set field inner = .ok updated := by
  rw [saveAt, Fallible.bind_eq_ok_iff]
  constructor
  · intro h
    obtain ⟨assigned, hassigned, h⟩ := h
    obtain ⟨inner, hinner, hupdated⟩ := Fallible.bind_eq_ok_iff.mp h
    exact ⟨inner, hinner, by rw [← Json.set_set hassigned, hupdated]⟩
  · intro h
    obtain ⟨inner, hinner, hupdated⟩ := h
    obtain ⟨assigned, hassigned⟩ :=
      Json.exists_set_iff.mpr (Json.exists_set_iff.mp ⟨updated, hupdated⟩)
    refine ⟨assigned, hassigned, Fallible.bind_eq_ok_iff.mpr ⟨inner, hinner, ?_⟩⟩
    rw [Json.set_set hassigned, hupdated]

/-! ## Paths -/

theorem exists_saveAt_iff : (∃ updated, saveAt (.ok tree) path json = .ok updated) ↔
    path = [] ∨ json = .null ∨ json.isObject := by
  induction path generalizing json with
  | nil => simp [saveAt]
  | cons field path ih =>
      simp only [saveAt_cons_eq_ok_iff, reduceCtorEq, false_or]
      constructor
      · intro h
        obtain ⟨updated, inner, -, hset⟩ := h
        exact Json.exists_set_iff.mp ⟨updated, hset⟩
      · intro h
        -- what is saved next is saved into an object
        obtain ⟨inner, hinner⟩ := ih.mpr (.inr (.inr (isObject_objectMember json field)))
        obtain ⟨updated, hset⟩ := Json.exists_set_iff.mpr h
        exact ⟨updated, inner, hinner, hset⟩

theorem valueAt_saveAt (h : saveAt (.ok tree) path json = .ok updated) :
    valueAt path updated = some tree := by
  induction path generalizing json updated with
  | nil =>
      cases h
      rfl
  | cons field path ih =>
      obtain ⟨inner, hinner, hset⟩ := saveAt_cons_eq_ok_iff.mp h
      rw [valueAt, Json.get_set_self hset, Option.bind_some]
      exact ih hinner

theorem isObject_of_valueAt (h : valueAt (field :: path) json = some value) : json.isObject := by
  obtain ⟨member, hmember, -⟩ := Option.bind_eq_some_iff.mp h
  exact Json.isObject_of_get hmember

/-- The two paths part at some name, and up to it the values are objects. -/
theorem valueAt_saveAt_of_apart (h : saveAt (.ok tree) path json = .ok updated)
    (hother : ¬ other <+: path) (hpath : ¬ path <+: other)
    (hvalue : valueAt other json = some value) : valueAt other updated = some value := by
  induction path generalizing json updated other with
  | nil => exact absurd List.nil_prefix hpath
  | cons field path ih =>
      cases other with
      | nil => exact absurd List.nil_prefix hother
      | cons name rest =>
          obtain ⟨inner, hinner, hset⟩ := saveAt_cons_eq_ok_iff.mp h
          obtain ⟨member, hmember, hrest⟩ := Option.bind_eq_some_iff.mp hvalue
          by_cases hname : name = field
          · subst hname
            rw [List.cons_prefix_cons, not_and] at hother hpath
            have hobject : member.isObject := by
              cases rest with
              | nil => exact absurd List.nil_prefix (hother rfl)
              | cons next rest => exact isObject_of_valueAt hrest
            rw [objectMember_of_get hmember hobject] at hinner
            rw [valueAt, Json.get_set_self hset, Option.bind_some]
            exact ih hinner (hother rfl) (hpath rfl) hrest
          · rw [valueAt, Json.get_set_of_ne hset hname]
            exact hvalue

theorem le_depth_saveAt (h : saveAt (.ok tree) path json = .ok updated) :
    path.length + tree.depth ≤ updated.depth := by
  induction path generalizing json updated with
  | nil =>
      cases h
      simp
  | cons field path ih =>
      obtain ⟨inner, hinner, hset⟩ := saveAt_cons_eq_ok_iff.mp h
      have hle := ih hinner
      have hlt := Json.depth_lt_of_set hset
      rw [List.length_cons]
      omega

theorem depth_saveAt_le (h : saveAt (.ok tree) path json = .ok updated) :
    updated.depth ≤ max json.depth (path.length + tree.depth) := by
  induction path generalizing json updated with
  | nil =>
      cases h
      simp
  | cons field path ih =>
      obtain ⟨inner, hinner, hset⟩ := saveAt_cons_eq_ok_iff.mp h
      have hle := Json.depth_set_le hset
      cases path with
      | nil =>
          cases hinner
          simp only [List.length_cons, List.length_nil]
          omega
      | cons next path =>
          have hinner := ih hinner
          have hmember := depth_objectMember_le json field
          simp only [List.length_cons] at hinner ⊢
          omega

/-- A well-formed value in a well-formed tree leaves the tree well-formed. -/
theorem wellFormed_saveAt (htree : tree.WellFormed) (hjson : json.WellFormed)
    (h : saveAt (.ok tree) path json = .ok updated) : updated.WellFormed := by
  induction path generalizing json updated with
  | nil =>
      cases h
      exact htree
  | cons field path ih =>
      obtain ⟨inner, hinner, hset⟩ := saveAt_cons_eq_ok_iff.mp h
      refine hjson.set (ih ?_ hinner) hset
      rcases objectMember_cases json field with hempty | ⟨hget, -⟩
      · rw [hempty]
        exact .object .nil (by simp)
      · exact hjson.get hget

/-! ## Files -/

section Files

variable {Text T : Type} {format : JsonFormat Text} {serde : Serde T}
  {context context' : IOContext Text} {definition : ConfigFieldDefinition} {saved : T}

/-- The file has a text of a JSON value. -/
def IOContext.Holds (context : IOContext Text) (format : JsonFormat Text) (file : ConfigFile)
    (json : Json) : Prop :=
  ∃ text, context.files (context.configFilePath file) = some (.text text) ∧
    format.Denotes text json

theorem IOContext.Holds.wellFormed {file : ConfigFile} (h : context.Holds format file json) :
    json.WellFormed := by
  obtain ⟨text, -, hdenotes⟩ := h
  exact format.wellFormed_of_denotes hdenotes

theorem IOContext.holds_store (context : IOContext Text) (format : JsonFormat Text)
    (file : ConfigFile) (hjson : json.WellFormed) :
    (context.store (context.configFilePath file) (format.toStringPretty json)).Holds format file
      json :=
  ⟨_, Function.update_self _ _ _, format.denotes_toStringPretty hjson⟩

theorem loadFile_of_holds (hholds : context.Holds format definition.configFile json) :
    definition.loadFile format context =
      if json.depth ≤ Json.nestingLimit then .ok (some json)
      else .error (.exit (-1) ("Config file " ++ context.configFilePath definition.configFile ++
        " is broken. Delete it or fix manually and restart this wizard")) := by
  obtain ⟨text, hfile, hdenotes⟩ := hholds
  have hread := format.fromStr_of_denotes hdenotes
  simp only [ConfigFieldDefinition.loadFile, IOContext.fileExists, IOContext.readFile, hfile,
    Option.isSome_some, if_true, Fallible.mapError_ok, Fallible.ok_bind, Option.bind_some, hread]
  split_ifs <;> rfl

theorem loadFile_of_le (hholds : context.Holds format definition.configFile json)
    (hdepth : json.depth ≤ Json.nestingLimit) :
    definition.loadFile format context = .ok (some json) := by
  rw [loadFile_of_holds hholds, if_pos hdepth]

theorem depth_le_of_loadFile (hholds : context.Holds format definition.configFile json)
    {content : Option Json} (h : definition.loadFile format context = .ok content) :
    json.depth ≤ Json.nestingLimit := by
  by_contra hdepth
  rw [loadFile_of_holds hholds, if_neg hdepth] at h
  cases h

theorem saveToFile_eq_ok_iff (hholds : context.Holds format definition.configFile json)
    (htree : serde.toValue saved = .ok tree) :
    definition.saveToFile format serde saved context = .ok context' ↔
      json.depth ≤ Json.nestingLimit ∧
      context.writable (context.configFilePath definition.configFile) ∧
      ∃ updated, saveAt (.ok tree) definition.path json = .ok updated ∧
        context' = context.store (context.configFilePath definition.configFile)
          (format.toStringPretty updated) := by
  constructor
  · intro h
    obtain ⟨content, hcontent, h⟩ := Fallible.bind_eq_ok_iff.mp h
    have hdepth := depth_le_of_loadFile hholds hcontent
    rw [loadFile_of_le hholds hdepth] at hcontent
    cases hcontent
    obtain ⟨updated, hupdated, h⟩ := Fallible.bind_eq_ok_iff.mp h
    rw [htree, Fallible.mapError_ok, Fallible.mapError_eq_ok_iff] at hupdated
    rw [Fallible.mapError_eq_ok_iff, IOContext.writeFile] at h
    split_ifs at h with hwritable
    cases h
    exact ⟨hdepth, hwritable, updated, hupdated, rfl⟩
  · intro h
    obtain ⟨hdepth, hwritable, updated, hupdated, rfl⟩ := h
    simp [ConfigFieldDefinition.saveToFile, loadFile_of_le hholds hdepth, htree, hupdated,
      IOContext.writeFile, hwritable]

/-- The field is loaded with the saved value, and the values under paths that neither lead to the
field nor through it are those of the file before. -/
structure SavedAsCell (format : JsonFormat Text) (serde : Serde T)
    (definition : ConfigFieldDefinition) (saved : T) (before : Json)
    (context' : IOContext Text) : Prop where
  loaded : definition.loadFromFile format serde context' = .ok (some saved)
  kept : ∀ other value, ¬ other <+: definition.path → ¬ definition.path <+: other →
    valueAt other before = some value →
      ∃ after, definition.loadFile format context' = .ok (some after) ∧
        valueAt other after = some value

theorem savedAsCell_store (context : IOContext Text) (hread : serde.fromValue tree = some saved)
    (hwell : updated.WellFormed)
    (hupdated : saveAt (.ok tree) definition.path json = .ok updated)
    (hdepth : json.depth ≤ Json.nestingLimit)
    (hnested : definition.path.length + tree.depth ≤ Json.nestingLimit) :
    SavedAsCell format serde definition saved json
      (context.store (context.configFilePath definition.configFile)
        (format.toStringPretty updated)) := by
  have hlimit := (depth_saveAt_le hupdated).trans (max_le hdepth hnested)
  have hload := loadFile_of_le (context.holds_store format definition.configFile hwell) hlimit
  constructor
  · simp [ConfigFieldDefinition.loadFromFile, hload, valueAt_saveAt hupdated, hread,
      ConfigFieldDefinition.extractFromJsonObject]
  · intro other value hother hpath hvalue
    exact ⟨updated, hload, valueAt_saveAt_of_apart hupdated hother hpath hvalue⟩

theorem SavedAsCell.depth_le (h : SavedAsCell format serde definition saved json context')
    (hholds : context'.Holds format definition.configFile updated) :
    updated.depth ≤ Json.nestingLimit := by
  obtain ⟨content, hcontent, -⟩ := Fallible.bind_eq_ok_iff.mp h.loaded
  exact depth_le_of_loadFile hholds hcontent

end Files

/-- Texts that are the values themselves. -/
def valueFormat : JsonFormat Json where
  Denotes text json := text = json ∧ json.WellFormed
  fromStr json := if json.depth ≤ Json.nestingLimit then some json else none
  toStringPretty json := json
  wellFormed_of_denotes h := h.2
  denotes_toStringPretty h := ⟨rfl, h⟩
  fromStr_of_denotes := fun {_ _} h => by rw [h.1]

def stringSerde : Serde String where
  toValue value := .ok (.string value)
  wellFormed_toValue h := by
    cases h
    exact .string _
  fromValue
    | .string value => some value
    | _ => none

/-- A directory in which only the file with the resources may exist. -/
def resourcesContext (json : Json) : IOContext Json where
  envVar _ := none
  files path := if path = "pc-resources-config.json" then some (.text json) else none
  writable _ := true

theorem resourcesContext_holds {json : Json} (h : json.WellFormed) :
    (resourcesContext json).Holds valueFormat .resources json :=
  ⟨json, rfl, rfl, h⟩

def ogmiosJson : Json := .object [("ogmios", .object [("port", .number (.posInt 1337))])]

theorem ogmiosJson_wellFormed : ogmiosJson.WellFormed := by
  refine .object (List.pairwise_singleton _ _) fun member hmember => ?_
  obtain rfl := List.mem_singleton.mp hmember
  refine .object (List.pairwise_singleton _ _) fun port hport => ?_
  obtain rfl := List.mem_singleton.mp hport
  exact .number _

end PartnerChains.Cli
