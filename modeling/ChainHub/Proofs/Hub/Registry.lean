import ChainHub.Hub.Registry
import ChainHub.Proofs.Attempt
import Mathlib.Data.List.Induction
import Mathlib.Data.List.Nodup

/-!
# Modules and commands stay in step

A registry keeps the modules in a list and their commands in a table under both names. Whatever
modules are offered to it, accepted or refused, the two say the same.

* `Module.Serves`: the last command that a module declares under a name is the one that counts.
* `Registry.InStep`: no two modules have one name, and the table has the commands that the modules
  serve, each under the name of its own module.
* `Registry.InStep.insert`: one more module keeps this if its name is new.
* `Registry.offer`, `Registry.offerAll`: a module that is refused leaves the registry as it was.
* `Registry.names_offerAll`, `Registry.first_offerAll`: the modules are those that were the first of
  their names, in the order in which the names came up.
* `Registry.offers_inStep`: all this of the registries that start without modules or with the hub's
  own one.
-/

namespace ChainHub

/-- The command is the last one that the module declares under a name. -/
def Module.Serves (mod : Module) (name : String) (command : Command) : Prop :=
  ∃ earlier later, mod.commands = earlier ++ command :: later ∧ command.name = name ∧
    ∀ other ∈ later, other.name ≠ name

/-- The last command of that name. -/
def Module.last? (mod : Module) (name : String) : Option Command :=
  mod.commands.reverse.find? fun c => c.name == name

theorem Module.last?_eq_some_iff {mod : Module} {name : String} {command : Command} :
    mod.last? name = some command ↔ mod.Serves name command := by
  rw [last?, List.find?_eq_some_iff_append]
  constructor
  · rintro ⟨hname, later, earlier, hcommands, hlater⟩
    refine ⟨earlier.reverse, later.reverse, ?_, by simpa using hname, fun other hother => ?_⟩
    · rw [List.reverse_eq_iff] at hcommands
      simpa using hcommands
    · simpa using hlater other (List.mem_reverse.mp hother)
  · rintro ⟨earlier, later, hcommands, hname, hlater⟩
    refine ⟨by simpa using hname, later.reverse, earlier.reverse, by simp [hcommands], ?_⟩
    intro other hother
    simpa using hlater other (List.mem_reverse.mp hother)

/-- A module serves the names that it declares commands under. -/
theorem Module.exists_serves_iff {mod : Module} {name : String} :
    (∃ command, mod.Serves name command) ↔ ∃ command ∈ mod.commands, command.name = name := by
  simp only [← last?_eq_some_iff, ← Option.isSome_iff_exists, last?, List.find?_isSome,
    List.mem_reverse, beq_iff_eq]

namespace Registry

variable {r base : Registry} {mod : Module}

/-- The names of the modules, in their order. -/
def names (r : Registry) : List String := r.modules.map Module.name

theorem mem_names_iff {name : String} : name ∈ r.names ↔ ∃ mod ∈ r.modules, mod.name = name :=
  List.mem_map

theorem hasModule_eq_true_iff {name : String} : r.hasModule name = true ↔ name ∈ r.names := by
  simp [hasModule, names]

/-! ## One more module -/

/-- Modules and commands say the same. -/
structure InStep (r : Registry) : Prop where
  distinct : r.names.Nodup
  command?_eq_some_iff : ∀ module name command, r.command? module name = some command ↔
    ∃ mod ∈ r.modules, mod.name = module ∧ mod.Serves name command

theorem inStep_empty : empty.InStep where
  distinct := List.nodup_nil
  command?_eq_some_iff := by simp [empty, command?]

/-- Commands that are entered one after the other under the names of one module: the last one of a
name stays. -/
theorem getElem?_foldl_insert (module : String) (commands : List Command)
    (table : Table ServiceName Command) (key : ServiceName) :
    (commands.foldl (fun t c => t.insert ⟨module, c.name⟩ c) table)[key]? =
      if key.module = module then
        (commands.reverse.find? fun c => c.name == key.command).or table[key]?
      else table[key]? := by
  induction commands using List.reverseRecOn with
  | nil => simp
  | append_singleton commands c ih =>
    rw [List.foldl_concat, Std.ExtTreeMap.getElem?_insert, ih, List.reverse_concat,
      List.find?_cons]
    obtain ⟨named, command⟩ := key
    by_cases hmodule : named = module
    · by_cases hcommand : c.name = command
      · simp [hmodule, hcommand]
      · simp [hmodule, hcommand, beq_false_of_ne hcommand]
    · simp [hmodule, Ne.symm hmodule]

/-- Under the name of a new module the table has its last command, elsewhere what it had. -/
theorem command?_insert (r : Registry) (mod : Module) (module name : String) :
    (r.insert mod).command? module name =
      if module = mod.name then (mod.last? name).or (r.command? module name)
      else r.command? module name :=
  getElem?_foldl_insert mod.name mod.commands r.commands ⟨module, name⟩

/-- A command that is served after a module was added is one of its commands or was served before. -/
theorem of_command?_insert {module name : String} {command : Command}
    (h : (r.insert mod).command? module name = some command) :
    command ∈ mod.commands ∨ r.command? module name = some command := by
  rw [command?_insert] at h
  split at h
  · rcases Option.or_eq_some_iff.mp h with hlast | ⟨-, hget⟩
    · exact Or.inl (List.mem_reverse.mp (List.mem_of_find?_eq_some hlast))
    · exact Or.inr hget
  · exact Or.inr h

theorem InStep.command?_eq_none (hr : r.InStep) {module : String} (hnew : module ∉ r.names)
    (name : String) : r.command? module name = none := by
  refine Option.eq_none_iff_forall_ne_some.mpr fun command hcommand => hnew ?_
  obtain ⟨mod, hmem, rfl, -⟩ := (hr.command?_eq_some_iff _ _ _).mp hcommand
  exact List.mem_map_of_mem hmem

theorem InStep.isSome_command?_iff (hr : r.InStep) {module name : String} :
    (r.command? module name).isSome ↔ ∃ mod ∈ r.modules, mod.name = module ∧
      ∃ command ∈ mod.commands, command.name = name := by
  simp only [Option.isSome_iff_exists, hr.command?_eq_some_iff, ← Module.exists_serves_iff]
  constructor
  · rintro ⟨command, mod, hmem, hname, hserves⟩
    exact ⟨mod, hmem, hname, command, hserves⟩
  · rintro ⟨mod, hmem, hname, command, hserves⟩
    exact ⟨command, mod, hmem, hname, hserves⟩

/-- **A module with a new name keeps modules and commands in step.** -/
theorem InStep.insert (hr : r.InStep) (hnew : mod.name ∉ r.names) : (r.insert mod).InStep where
  distinct := by
    have hnames : (r.insert mod).names = r.names ++ [mod.name] := List.map_append
    rw [hnames]
    exact List.nodup_append_comm.mp (List.nodup_cons.mpr ⟨hnew, hr.distinct⟩)
  command?_eq_some_iff module name command := by
    have hmem : (∃ other ∈ (r.insert mod).modules, other.name = module ∧
        other.Serves name command) ↔
          (∃ other ∈ r.modules, other.name = module ∧ other.Serves name command) ∨
            mod.name = module ∧ mod.Serves name command := by
      simp [Registry.insert, or_and_right, exists_or]
    rw [hmem, ← hr.command?_eq_some_iff, command?_insert]
    by_cases hmodule : module = mod.name
    · subst hmodule
      simp [hr.command?_eq_none hnew, Module.last?_eq_some_iff]
    · simp [hmodule, Ne.symm hmodule]

/-! ## Offers -/

/-- A module is registered exactly if its name is new. -/
theorem register_eq_error_iff {e : HubError} :
    r.register mod = .error e ↔ e = .moduleRegistered mod.name ∧ mod.name ∈ r.names := by
  rw [← hasModule_eq_true_iff, register]
  by_cases hmodule : r.hasModule mod.name
  · rw [if_pos hmodule, Except.error.injEq, eq_comm]
    exact (and_iff_left hmodule).symm
  · rw [if_neg hmodule]
    exact iff_of_false nofun fun h => hmodule h.2

/-- The registry after a module was offered to it. One that is refused leaves it as it was. -/
def offer (r : Registry) (mod : Module) : Registry := (r.register mod).toOption.getD r

/-- The registry after several modules were offered to it. -/
def offerAll (r : Registry) (offered : List Module) : Registry := offered.foldl offer r

theorem offer_eq (r : Registry) (mod : Module) :
    r.offer mod = if mod.name ∈ r.names then r else r.insert mod := by
  simp only [offer, register, hasModule_eq_true_iff]
  split <;> rfl

/-- **An offer keeps modules and commands in step.** -/
theorem InStep.offer (hr : r.InStep) (mod : Module) : (r.offer mod).InStep := by
  rw [offer_eq]
  split
  · exact hr
  · rename_i hnew
    exact hr.insert hnew

theorem InStep.offerAll (hr : r.InStep) (offered : List Module) : (r.offerAll offered).InStep := by
  induction offered generalizing r with
  | nil => exact hr
  | cons mod rest ih => exact ih (hr.offer mod)

/-! ## Which modules there are -/

/-- A name that came up before is not added again. -/
theorem eraseDups_concat (names : List String) (name : String) :
    (names ++ [name]).eraseDups =
      if name ∈ names then names.eraseDups else names.eraseDups ++ [name] := by
  rw [List.eraseDups_append]
  split <;> simp_all [List.removeAll, List.eraseDups_cons]

theorem eraseDups_eq_self {names : List String} (hnames : names.Nodup) :
    names.eraseDups = names := by
  induction names using List.reverseRecOn with
  | nil => rfl
  | append_singleton names name ih =>
    rw [← List.concat_eq_append, List.nodup_concat] at hnames
    rw [eraseDups_concat, if_neg hnames.1, ih hnames.2]

theorem names_offer (r : Registry) (mod : Module) :
    (r.offer mod).names = if mod.name ∈ r.names then r.names else r.names ++ [mod.name] := by
  rw [offer_eq]
  split
  · rfl
  · exact List.map_append

/-- **The names are those that came up, in the order in which they first did.** -/
theorem names_offerAll (hbase : base.names.Nodup) (offered : List Module) :
    (base.offerAll offered).names = (base.names ++ offered.map Module.name).eraseDups := by
  induction offered using List.reverseRecOn with
  | nil => rw [List.map_nil, List.append_nil, eraseDups_eq_self hbase, offerAll, List.foldl_nil]
  | append_singleton offered mod ih =>
    rw [offerAll, List.foldl_concat, ← offerAll, names_offer, ih, List.map_append,
      List.map_singleton, ← List.append_assoc, eraseDups_concat]
    simp only [List.mem_eraseDups]

/-- A module that is refused is not the first of its name. -/
theorem first_offer (r : Registry) (mod : Module) (name : String) :
    (r.offer mod).modules.find? (fun m => m.name == name) =
      (r.modules ++ [mod]).find? fun m => m.name == name := by
  rw [offer_eq]
  split
  · rename_i hmodule
    rw [List.find?_append, List.find?_singleton]
    by_cases hname : mod.name = name
    · have hfound : (r.modules.find? fun m => m.name == name).isSome := by
        rw [List.find?_isSome]
        simpa [names, hname] using hmodule
      rw [Option.or_of_isSome hfound]
    · simp [hname]
  · rfl

/-- **Of the modules with one name the first is there.** -/
theorem first_offerAll (base : Registry) (offered : List Module) (name : String) :
    (base.offerAll offered).modules.find? (fun m => m.name == name) =
      (base.modules ++ offered).find? fun m => m.name == name := by
  induction offered generalizing base with
  | nil => simp [offerAll]
  | cons mod rest ih =>
    calc (base.offerAll (mod :: rest)).modules.find? (fun m => m.name == name)
      _ = ((base.offer mod).modules ++ rest).find? fun m => m.name == name := ih (base.offer mod)
      _ = ((base.modules ++ [mod]) ++ rest).find? fun m => m.name == name := by
          rw [List.find?_append, first_offer, ← List.find?_append]
      _ = (base.modules ++ mod :: rest).find? fun m => m.name == name := by
          rw [List.append_assoc, List.singleton_append]

/-! ## Any sequence of offers -/

/-- **Modules and commands say the same after any sequence of offers.** Whatever modules are offered
to a registry without modules or with the hub's own one,

* one more module is refused, for its name, exactly if a module of that name is there, and the
  registry stays as it was,
* the names of the modules are distinct, in the order in which they first came up, and of each name
  there is the module that came up first,
* a command is there exactly if the module of that name declares one of that name, and it is the
  last one that this module declares under it. -/
theorem offers_inStep (hbase : base = .empty ∨ base = .default) (offered : List Module) :
    let r := base.offerAll offered
    (∀ mod, (∀ e, r.register mod = .error e ↔ e = .moduleRegistered mod.name ∧
        ∃ other ∈ r.modules, other.name = mod.name) ∧
      ((∃ other ∈ r.modules, other.name = mod.name) → r.offer mod = r)) ∧
    r.names.Nodup ∧
    r.names = (base.names ++ offered.map Module.name).eraseDups ∧
    (∀ name, r.modules.find? (fun m => m.name == name) =
      (base.modules ++ offered).find? fun m => m.name == name) ∧
    ∀ module name,
      ((r.command? module name).isSome ↔ ∃ mod ∈ r.modules, mod.name = module ∧
        ∃ command ∈ mod.commands, command.name = name) ∧
      ∀ command, r.command? module name = some command ↔
        ∃ mod ∈ r.modules, mod.name = module ∧ mod.Serves name command := by
  have hstart : base.InStep := by
    obtain rfl | rfl := hbase
    · exact inStep_empty
    · exact inStep_empty.insert List.not_mem_nil
  have hr : (base.offerAll offered).InStep := hstart.offerAll offered
  intro r
  refine ⟨fun mod => ⟨fun e => ?_, fun hpresent => ?_⟩, hr.distinct,
    names_offerAll hstart.distinct offered, first_offerAll base offered,
    fun module name => ⟨?_, ?_⟩⟩
  · rw [register_eq_error_iff, mem_names_iff]
  · rw [offer_eq, if_pos (mem_names_iff.mpr hpresent)]
  · exact hr.isSome_command?_iff
  · exact hr.command?_eq_some_iff module name

/-- A module that declares one command twice. -/
def twiceDeclared : Module where
  name := "token"
  commands := [{ name := "transfer", execute := fun _ => HubM.abort },
    { name := "transfer", execute := fun _ => pure () }]

/-- The module of the hub and a module with a taken name are refused, the command is the later of
the two. -/
theorem offers_inStep_twiceDeclared :
    let r := default.offerAll [twiceDeclared, interoperability, { name := "token" }]
    r.names = [interoperabilityModule, "token"] ∧
      r.command? "token" "transfer" = some { name := "transfer", execute := fun _ => pure () } := by
  obtain ⟨-, -, hnames, hfirst, hcommand⟩ :=
    offers_inStep (.inr rfl) [twiceDeclared, interoperability, { name := "token" }]
  refine ⟨hnames.trans (by decide), ((hcommand _ _).2 _).mpr ⟨twiceDeclared, ?_, rfl, ?_⟩⟩
  · exact List.mem_of_find?_eq_some ((hfirst "token").trans rfl)
  · exact ⟨[_], [], rfl, rfl, nofun⟩

end Registry

end ChainHub
