/-
# Settings are read back from their text

The text of a configuration is read in four stages. What comes out of each is given for the text of any settings:

| stage | result |
| --- | --- |
| bytes to text | `Config.render` |
| text to statements | `Config.statements` |
| statements to a table | `Config.fields` |
| table to settings | the settings |

A name that the last stage did not find would silently take its default, so the tables are given whole.

Source: specification, 8 and 10.4.
-/

import GuestKernel.Config.Reading
import GuestKernel.Proofs.ConfigLines
import GuestKernel.Proofs.TextBytes

namespace GuestKernel

open Toml

/-! ## Statements -/

namespace Toml

/-- The lines that give names their values, in order. -/
def assigns (fields : Fields) : List Statement := fields.map fun (key, v) => .assign [key] v

theorem Reads.assignment (key : String) {text : List Char} {v : Value} (hkey : Bare key) (hv : Written text v) :
    Reads (assignmentLine key text) (assigns [(key, v)]) :=
  .line (.assignment hkey hv)

end Toml

/-- The table of a partition. -/
def PartitionConfig.fields (p : PartitionConfig) : Fields :=
  [("id", .integer p.id.toNat), ("name", .string p.name), ("base", .integer p.base.toNat),
    ("size", .integer p.size.toNat)]

namespace KernelConfig

/-- The settings of the kernel that are numbers. -/
def numbers (c : KernelConfig) : Fields :=
  [("thread_partition", .integer c.threadPartition.toNat), ("tls_size", .integer c.tlsSize.toNat),
    ("default_stack_size", .integer c.defaultStackSize.toNat), ("min_stack_size", .integer c.minStackSize.toNat),
    ("module_gp", .integer c.moduleGp.toNat), ("module_entry", .integer c.moduleEntry.toNat)]

/-- The settings of the kernel that stand right under its header. -/
def settings (c : KernelConfig) : Fields :=
  (if c.partitions.isEmpty then [("partitions", .array [])] else []) ++ c.numbers

end KernelConfig

def MemoryConfig.fields (c : MemoryConfig) : Fields := [("scratchpad", .boolean c.scratchpad)]

def DebugConfig.fields (c : DebugConfig) : Fields :=
  [("log_level", .string c.logLevel.name), ("log_to_file", .boolean c.logToFile), ("log_path", .string c.logPath),
    ("trace_syscalls", .boolean c.traceSyscalls)]

/-- The lines of a table with a header. -/
def tableStatements (key : String) (fields : Fields) : List Statement := .header [key] :: assigns fields

/-- The lines of one of the partitions. -/
def partitionStatements (fields : Fields) : List Statement := .element ["kernel", "partitions"] :: assigns fields

/-- The lines of all settings. -/
def Config.statements (c : Config) : List Statement :=
  tableStatements "kernel" c.kernel.settings ++
    c.kernel.partitions.flatMap (fun p => partitionStatements p.fields) ++
    tableStatements "memory" c.memory.fields ++ tableStatements "debug" c.debug.fields

/-- The text of a partition is read as its statements. -/
theorem PartitionConfig.reads_render (p : PartitionConfig) : Reads p.render (partitionStatements p.fields) :=
  Reads.line line_blank
    |>.append (.line (.element (by decide) (by decide) (by decide)))
    |>.append (.assignment "id" (by decide) (written_writeWord p.id))
    |>.append (.assignment "name" (by decide) (written_writeQuoted p.name))
    |>.append (.assignment "base" (by decide) (written_writeWord p.base))
    |>.append (.assignment "size" (by decide) (written_writeWord p.size))

/-- The text of a kernel's settings is read as its statements. -/
theorem KernelConfig.reads_render (c : KernelConfig) :
    Reads c.render (tableStatements "kernel" c.settings ++
      c.partitions.flatMap fun p => partitionStatements p.fields) := by
  have hempty : Reads (if c.partitions.isEmpty then assignmentLine "partitions" ['[', ']'] else [])
      (assigns (if c.partitions.isEmpty then [("partitions", .array [])] else [])) := by
    split
    · exact .assignment "partitions" (by decide) written_empty
    · exact .nil
  have hlines := Reads.line (.header (by decide : Bare "kernel"))
    |>.append hempty
    |>.append (.assignment "thread_partition" (by decide) (written_writeWord c.threadPartition))
    |>.append (.assignment "tls_size" (by decide) (written_writeWord c.tlsSize))
    |>.append (.assignment "default_stack_size" (by decide) (written_writeWord c.defaultStackSize))
    |>.append (.assignment "min_stack_size" (by decide) (written_writeWord c.minStackSize))
    |>.append (.assignment "module_gp" (by decide) (written_writeWord c.moduleGp))
    |>.append (.assignment "module_entry" (by decide) (written_writeWord c.moduleEntry))
    |>.append (.flatMap PartitionConfig.reads_render c.partitions)
  simpa [render, tableStatements, settings, numbers, assigns] using hlines

theorem MemoryConfig.reads_render (c : MemoryConfig) : Reads c.render (tableStatements "memory" c.fields) :=
  Reads.line line_blank
    |>.append (.line (.header (by decide)))
    |>.append (.assignment "scratchpad" (by decide) (written_writeFlag c.scratchpad))

/-- The text of the debug settings is read as their statements. -/
theorem DebugConfig.reads_render (c : DebugConfig) : Reads c.render (tableStatements "debug" c.fields) :=
  Reads.line line_blank
    |>.append (.line (.header (by decide)))
    |>.append (.assignment "log_level" (by decide) (written_writeQuoted c.logLevel.name))
    |>.append (.assignment "log_to_file" (by decide) (written_writeFlag c.logToFile))
    |>.append (.assignment "log_path" (by decide) (written_writeQuoted c.logPath))
    |>.append (.assignment "trace_syscalls" (by decide) (written_writeFlag c.traceSyscalls))

/-- **The text of all settings is read as their lines.** -/
theorem Config.statements?_render (c : Config) : statements? c.render.toList = some c.statements := by
  have hreads : Reads c.render.toList c.statements := by
    rw [render, String.toList_ofList]
    exact c.kernel.reads_render |>.append c.memory.reads_render |>.append c.debug.reads_render
  refine hreads.statements? ?_
  simp [render, KernelConfig.render, headerLine]

/-! ## Tables -/

namespace Toml

namespace Fields

/-- Fields that come first hide those of the same key behind them. -/
theorem get?_append (fields fields' : Fields) (key : String) :
    Fields.get? key (fields ++ fields') = (Fields.get? key fields).or (Fields.get? key fields') := by
  induction fields with
  | nil => rfl
  | cons entry rest ih =>
    obtain ⟨k, v⟩ := entry
    rw [List.cons_append, get?, get?]
    split
    · rfl
    · exact ih

theorem get?_eq_none {key : String} {fields : Fields} (h : key ∉ fields.map Prod.fst) :
    fields.get? key = none := by
  induction fields with
  | nil => rfl
  | cons entry rest ih =>
    obtain ⟨k, v⟩ := entry
    rw [List.map_cons, List.mem_cons, not_or] at h
    rw [get?, if_neg (Ne.symm h.1), ih h.2]

theorem set_append {fields : Fields} {key : String} (h : fields.get? key = none) (fields' : Fields) (v : Value) :
    Fields.set key v (fields ++ fields') = fields ++ Fields.set key v fields' := by
  induction fields with
  | nil => rfl
  | cons entry rest ih =>
    obtain ⟨k, v'⟩ := entry
    rw [get?] at h
    split at h
    · cases h
    · next hk => rw [List.cons_append, set, if_neg hk, ih h, List.cons_append]

theorem set_new {fields : Fields} {key : String} (h : fields.get? key = none) (v : Value) :
    fields.set key v = fields ++ [(key, v)] := by
  simpa [set] using set_append h [] v

theorem set_last {fields : Fields} {key : String} (h : fields.get? key = none) (v v' : Value) :
    Fields.set key v' (fields ++ [(key, v)]) = fields ++ [(key, v')] := by
  simpa [set] using set_append h [(key, v)] v'

theorem get?_last {fields : Fields} {key : String} (h : fields.get? key = none) (v : Value) :
    Fields.get? key (fields ++ [(key, v)]) = some v := by
  simp [get?_append, h, get?]

end Fields

/-- A path leads to the place that `plug` fills: changing the table at its end changes what is filled in. -/
def Focus (path : List String) (plug : Fields → Fields) : Prop :=
  ∀ (change : Fields → Option Fields) (sub : Fields),
    alter .implied (fun _ fields => change fields) .header path (plug sub) = (change sub).map plug

theorem Focus.here : Focus [] id := fun change sub => by
  rw [alter]
  exact Option.map_id'.symm

/-- Into a table with a header. -/
theorem Focus.table {path : List String} {plug : Fields → Fields} (h : Focus path plug) {key : String}
    {fields : Fields} (hnew : fields.get? key = none) :
    Focus (key :: path) fun sub => fields ++ [(key, Value.table .header (plug sub))] := by
  intro change sub
  rw [alter, Fields.get?_last hnew]
  dsimp only
  rw [if_neg (by decide), h change sub, Option.map_map]
  congr 1
  funext sub'
  exact Fields.set_last hnew _ _

/-- Into the last of the tables written one after another. -/
theorem Focus.tables {path : List String} {plug : Fields → Fields} (h : Focus path plug) {key : String}
    {fields : Fields} (hnew : fields.get? key = none) (done : List Fields) :
    Focus (key :: path) fun sub => fields ++ [(key, Value.tables (done ++ [plug sub]))] := by
  intro change sub
  rw [alter, Fields.get?_last hnew]
  dsimp only
  rw [List.getLast?_concat]
  dsimp only
  rw [h change sub, Option.map_map]
  congr 1
  funext sub'
  simp [Fields.set_last hnew]

theorem assign_singleton {key : String} {fields : Fields} (hnew : fields.get? key = none) (v : Value) :
    assign [key] v fields = some (fields ++ [(key, v)]) := by
  rw [← Fields.set_new hnew]
  simp [assign, alter, addField, hnew]

/-- Lines that give new names values add them in order to the table that the path leads to. -/
theorem foldlM_assigns {path : List String} {plug : Fields → Fields} (h : Focus path plug) (sub entries : Fields)
    (hkeys : ((sub ++ entries).map Prod.fst).Nodup) :
    (assigns entries).foldlM Draft.add ⟨plug sub, path⟩ = some ⟨plug (sub ++ entries), path⟩ := by
  induction entries generalizing sub with
  | nil => simp [assigns]
  | cons entry rest ih =>
    obtain ⟨key, v⟩ := entry
    have hnew : sub.get? key = none := by
      refine Fields.get?_eq_none fun hmem => ?_
      rw [List.map_append, List.nodup_append] at hkeys
      exact hkeys.2.2 key hmem key List.mem_cons_self rfl
    have hstep : Draft.add ⟨plug sub, path⟩ (.assign [key] v) = some ⟨plug (sub ++ [(key, v)]), path⟩ := by
      simp [Draft.add, h (assign [key] v), assign_singleton hnew]
    have hrest := ih (sub ++ [(key, v)]) (by simpa using hkeys)
    rw [List.append_assoc, List.singleton_append] at hrest
    rw [assigns, List.map_cons, List.foldlM_cons, hstep]
    exact hrest

/-- A new table with its lines goes to the end of the root. -/
theorem foldlM_tableStatements {draft : Draft} {key : String} (hnew : draft.root.get? key = none) (entries : Fields)
    (hkeys : (entries.map Prod.fst).Nodup) :
    (tableStatements key entries).foldlM Draft.add draft =
      some ⟨draft.root ++ [(key, Value.table .header entries)], [key]⟩ := by
  have hopen : draft.add (.header [key]) = some ⟨draft.root ++ [(key, .table .header [])], [key]⟩ := by
    rw [← Fields.set_new hnew]
    simp [Draft.add, alter, openTable, hnew]
  rw [tableStatements, List.foldlM_cons, hopen]
  exact foldlM_assigns (Focus.here.table hnew) [] entries hkeys

/-- Tables written one after another, if there are any. -/
def listed (key : String) (elements : List Fields) : Fields :=
  if elements.isEmpty then [] else [(key, .tables elements)]

/-- A new element goes behind those there are. -/
theorem openElement_listed {key : String} {fields : Fields} (hnew : fields.get? key = none) (done : List Fields) :
    openElement key (fields ++ listed key done) = some (fields ++ listed key (done ++ [[]])) := by
  rw [openElement]
  cases done with
  | nil => simp [listed, hnew, Fields.set_new hnew]
  | cons element done => simp [listed, Fields.get?_last hnew, Fields.set_last hnew]

/-- Each partition's lines add its table to those before it. -/
theorem foldlM_partitionStatements {fields : Fields} (hnew : fields.get? "partitions" = none) (done : List Fields)
    (path : List String) (elements : List Fields)
    (hkeys : ∀ element ∈ elements, (element.map Prod.fst).Nodup) :
    ∃ path', (elements.flatMap partitionStatements).foldlM Draft.add
        ⟨[("kernel", .table .header (fields ++ listed "partitions" done))], path⟩ =
      some ⟨[("kernel", .table .header (fields ++ listed "partitions" (done ++ elements)))], path'⟩ := by
  induction elements generalizing done path with
  | nil => exact ⟨path, by simp⟩
  | cons element rest ih =>
    have hkernel : Focus ["kernel"] fun sub => [] ++ [("kernel", .table .header sub)] :=
      Focus.here.table rfl
    have hopen : Draft.add ⟨[("kernel", .table .header (fields ++ listed "partitions" done))], path⟩
          (.element ["kernel", "partitions"]) =
        some ⟨[("kernel", .table .header (fields ++ listed "partitions" (done ++ [[]])))],
          ["kernel", "partitions"]⟩ := by
      have := hkernel (openElement "partitions") (fields ++ listed "partitions" done)
      rw [openElement_listed hnew] at this
      simpa [Draft.add] using this
    -- The lines after the header go to the last of the tables, which is empty at first.
    have hfocus : Focus ["kernel", "partitions"] fun sub =>
        [] ++ [("kernel", .table .header (fields ++ [("partitions", .tables (done ++ [sub]))]))] :=
      (Focus.here.tables hnew done).table rfl
    have hassigns := foldlM_assigns hfocus [] element (hkeys element List.mem_cons_self)
    have hlisted (sub : Fields) : listed "partitions" (done ++ [sub]) = [("partitions", .tables (done ++ [sub]))] := by
      simp [listed]
    obtain ⟨path', hrest⟩ := ih (done ++ [element]) ["kernel", "partitions"] fun e he =>
      hkeys e (List.mem_cons_of_mem element he)
    refine ⟨path', ?_⟩
    rw [List.append_assoc, List.singleton_append, hlisted] at hrest
    rw [List.flatMap_cons, partitionStatements, List.cons_append, List.foldlM_cons, hopen, hlisted]
    simp only [List.foldlM_append, Option.bind_eq_bind, Option.bind_some]
    simp only [List.nil_append] at hassigns
    rw [hassigns]
    exact hrest

end Toml

namespace KernelConfig

/-- The table of the kernel's settings. -/
def fields (c : KernelConfig) : Fields :=
  c.settings ++ listed "partitions" (c.partitions.map PartitionConfig.fields)

theorem nodup_settings (c : KernelConfig) : (c.settings.map Prod.fst).Nodup := by
  unfold settings numbers
  split <;> simp

theorem get?_settings_partitions {c : KernelConfig} (h : c.partitions ≠ []) :
    c.settings.get? "partitions" = none := by
  simp [settings, numbers, h, Fields.get?]

end KernelConfig

namespace Config

/-- The table of all settings. -/
def fields (c : Config) : Fields :=
  [("kernel", .table .header c.kernel.fields), ("memory", .table .header c.memory.fields),
    ("debug", .table .header c.debug.fields)]

/-- The statements of the partitions rebuild the list of them. -/
theorem foldlM_partitions (c : KernelConfig) (path : List String) :
    ∃ path', (c.partitions.flatMap fun p => partitionStatements p.fields).foldlM Draft.add
        ⟨[("kernel", .table .header c.settings)], path⟩ =
      some ⟨[("kernel", .table .header c.fields)], path'⟩ := by
  cases hp : c.partitions with
  | nil => exact ⟨path, by simp [KernelConfig.fields, hp, listed]⟩
  | cons p ps =>
    have hnew := KernelConfig.get?_settings_partitions (c := c) (by simp [hp])
    obtain ⟨path', h⟩ := foldlM_partitionStatements hnew [] path (c.partitions.map PartitionConfig.fields) (by
      simp [PartitionConfig.fields])
    refine ⟨path', ?_⟩
    simpa [← hp, List.flatMap_map, listed, KernelConfig.fields] using h

/-- **The lines of all settings build their table.** -/
theorem tableOf?_statements (c : Config) : tableOf? c.statements = some c.fields := by
  obtain ⟨path, hpartitions⟩ := foldlM_partitions c.kernel ["kernel"]
  have hkernel : (tableStatements "kernel" c.kernel.settings).foldlM Draft.add {} =
      some ⟨[("kernel", .table .header c.kernel.settings)], ["kernel"]⟩ :=
    foldlM_tableStatements rfl _ c.kernel.nodup_settings
  have hmemory : (tableStatements "memory" c.memory.fields).foldlM Draft.add
      ⟨[("kernel", .table .header c.kernel.fields)], path⟩ =
      some ⟨[("kernel", .table .header c.kernel.fields), ("memory", .table .header c.memory.fields)], ["memory"]⟩ :=
    foldlM_tableStatements (by simp [Fields.get?]) _ (by simp [MemoryConfig.fields])
  have hdebug : (tableStatements "debug" c.debug.fields).foldlM Draft.add
      ⟨[("kernel", .table .header c.kernel.fields), ("memory", .table .header c.memory.fields)], ["memory"]⟩ =
      some ⟨c.fields, ["debug"]⟩ :=
    foldlM_tableStatements (by simp [Fields.get?]) _ (by simp [DebugConfig.fields])
  rw [tableOf?, statements, List.foldlM_append, List.foldlM_append, List.foldlM_append, hkernel]
  simp only [Option.bind_eq_bind, Option.bind_some, hpartitions, hmemory, hdebug, Option.map_some]

end Config

/-! ## Settings -/

theorem word?_toNat (w : UInt32) : word? (.integer w.toNat) = some w := by
  have hlt := w.toNat_lt
  rw [word?, if_pos (by omega), Int.toNat_natCast, UInt32.ofNat_toNat]

theorem fieldOr_some {α : Type} {read : Value → Option α} {v : Value} {a : α} (h : read v = some a) (default : α) :
    fieldOr default read (some v) = some a := h

namespace PartitionConfig

theorem ofValue?_fields (p : PartitionConfig) : ofValue? (.table .header p.fields) = some p := by
  simp [ofValue?, recordFields?, fieldNames, fields, Fields.get?, word?_toNat, text?]

theorem listOfValue?_tables (ps : List PartitionConfig) : listOfValue? (.tables (ps.map fields)) = some ps := by
  rw [listOfValue?]
  induction ps with
  | nil => rfl
  | cons p ps ih => rw [List.map_cons, List.mapM_cons, ofValue?_fields, ih]; rfl

end PartitionConfig

namespace KernelConfig

theorem get?_fields_partitions (c : KernelConfig) :
    (Fields.get? "partitions" c.fields).bind PartitionConfig.listOfValue? = some c.partitions := by
  have hread := PartitionConfig.listOfValue?_tables c.partitions
  rw [fields, Fields.get?_append]
  cases hp : c.partitions with
  | nil =>
    simp only [settings, hp, List.isEmpty_nil, if_true, List.cons_append, Fields.get?, Option.some_or]
    rfl
  | cons p ps =>
    rw [get?_settings_partitions (by simp [hp]), Option.none_or, listed, if_neg (by simp), Fields.get?, if_pos rfl,
      Option.bind_some, ← hp, hread]

theorem get?_fields {c : KernelConfig} {key : String} (hkey : "partitions" ≠ key) :
    Fields.get? key c.fields = Fields.get? key c.numbers := by
  have hsettings : Fields.get? key c.settings = Fields.get? key c.numbers := by
    rw [settings, Fields.get?_append]
    split <;> simp [Fields.get?, hkey]
  have hlisted (elements : List Fields) : Fields.get? key (listed "partitions" elements) = none := by
    unfold listed
    split <;> simp [Fields.get?, hkey]
  rw [fields, Fields.get?_append, hsettings, hlisted, Option.or_none]

/-- The fields of a kernel's settings are read back as these. -/
theorem ofValue?_fields (c : KernelConfig) : ofValue? (.table .header c.fields) = some c := by
  obtain ⟨v, hv, hpartitions⟩ := Option.bind_eq_some_iff.1 c.get?_fields_partitions
  have hrecord : recordFields? fieldNames (.table .header c.fields) =
      some (some v :: [c.threadPartition, c.tlsSize, c.defaultStackSize, c.minStackSize, c.moduleGp,
        c.moduleEntry].map fun w => some (.integer w.toNat)) := by
    simp [recordFields?, fieldNames, hv, get?_fields, numbers, Fields.get?]
  have hword (w default : UInt32) : fieldOr default word? (some (.integer w.toNat)) = some w :=
    fieldOr_some (word?_toNat w) default
  rw [ofValue?, hrecord]
  simp only [List.map_cons, List.map_nil, fieldOr_some hpartitions, hword, Option.bind_eq_bind, Option.bind_some]

end KernelConfig

theorem MemoryConfig.ofValue?_fields (c : MemoryConfig) : ofValue? (.table .header c.fields) = some c := by
  simp [ofValue?, recordFields?, fields, Fields.get?, fieldOr, flag?]

/-- The fields of the debug settings are read back as these. -/
theorem DebugConfig.ofValue?_fields (c : DebugConfig) : ofValue? (.table .header c.fields) = some c := by
  have hrecord : recordFields? fieldNames (.table .header c.fields) =
      some [some (.string c.logLevel.name), some (.boolean c.logToFile), some (.string c.logPath),
        some (.boolean c.traceSyscalls)] := by
    simp only [recordFields?, fieldNames, List.map_cons, List.map_nil]
    simp [fields, Fields.get?]
  have hlevel : level? (.string c.logLevel.name) = some c.logLevel := LogLevel.ofName?_name c.logLevel
  have hflag (b : Bool) : flag? (.boolean b) = some b := rfl
  have htext : text? (.string c.logPath) = some c.logPath := rfl
  rw [ofValue?, hrecord]
  simp only [fieldOr_some hlevel, fieldOr_some (hflag _), fieldOr_some htext, Option.bind_eq_bind, Option.bind_some]

namespace Config

/-- **The table of all settings stands for them.** -/
theorem ofFields?_fields (c : Config) : ofFields? c.fields = some c := by
  simp [ofFields?, fields, Fields.get?, fieldOr, KernelConfig.ofValue?_fields, MemoryConfig.ofValue?_fields,
    DebugConfig.ofValue?_fields]

/-- **Settings come back from the file they were written to**, all of them: any partitions with any names, any
words, any path. -/
theorem load_render (c : Config) : load (some (Utf8.encode c.render)) = .ok c := by
  have hread : Toml.read c.render.toList = some c.fields := by
    rw [Toml.read, statements?_render, Option.bind_some, tableOf?_statements]
  have hparse : parse? c.render = some c := by
    rw [parse?, hread, Option.bind_some, ofFields?_fields]
  rw [load, Option.bind_some, Utf8.decode?_encode]
  dsimp only
  rw [hparse]

end Config

end GuestKernel
