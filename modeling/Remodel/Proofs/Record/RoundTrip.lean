import Remodel.Proofs.Record.Rebuilding
import Remodel.Proofs.Record.Sameness

/-!
# The round trip

A model in which every model is complete is rebuilt equal from its records, whatever the
connector, if the models that are different instances get different record ids.
-/

namespace Remodel

open Record Value

theorem Complete.sound {types : TypeTable} {model : Model} (h : Complete types model) :
    Sound types model where
  registered _ hresolve := Except.ok.inj (hresolve.symm.trans h.resolve)
  names := h.names
  separate _ hfield := separate_of_prefixFree h.prefixFree hfield
  accepted := h.accepted

/-- **The round trip.**  A model that holds complete models only is rebuilt equal from its
records. -/
theorem rebuild_flatten (types : TypeTable) (context : FlattenContext) (model : Model)
    (hcomplete : ∀ inner ∈ occurrences model, Complete types inner)
    (hcoherent : model.Coherent)
    (hoids : ((model.flatten context).value.records.map Record.oid).Nodup) :
    ∃ rebuilt, RebuiltAs types context model rebuilt ∧ (rebuilt == model) = true := by
  have hself := hcomplete model (self_mem_occurrences model)
  obtain ⟨restored, hrestored, hsame⟩ := givenBack_instance model hcomplete
  exact ⟨restored, rebuiltAs_of_restoreModel hcoherent
    (fun inner hinner => (hcomplete inner hinner).sound) hself.resolve hoids hrestored,
    hsame false⟩

/-! ## A team whose lead is one of its members -/

namespace Team

def person : Descriptor := ⟨"Person", some "name", [⟨"name", .string, true⟩]⟩

def team : Descriptor :=
  ⟨"Team", some "title",
    [⟨"title", .string, true⟩, ⟨"level", .enum ["junior", "senior"], true⟩,
      ⟨"lead", .model "Person", true⟩, ⟨"members", .list (.model "Person"), true⟩,
      ⟨"scores", .map .string .integer, true⟩, ⟨"logo", .file, true⟩]⟩

def types : TypeTable := TypeTable.empty.insertAll [person, team]

def context : FlattenContext := ⟨⟨"example.org", "teams", "main"⟩, fun _ => "drawn"⟩

def ann : Model := ⟨person, [("name", .string "Ann")], some 0⟩

def bob : Model := ⟨person, [("name", .string "Bob")], some 1⟩

def core : Model :=
  ⟨team, [("lead", .model ann), ("level", .enum "senior"), ("logo", .file ⟨"a.png", [1, 2]⟩),
    ("members", .list [.model ann, .model bob]), ("scores", .map [(.string "x", .integer 3)]),
    ("title", .string "Core")], none⟩

theorem occurrences_core : occurrences core = [ann, ann, bob, core] := rfl

theorem complete_core : ∀ inner ∈ occurrences core, Complete types inner := by
  rw [occurrences_core]
  decide

theorem coherent_core : core.Coherent := by
  unfold Model.Coherent
  rw [occurrences_core]
  simp [ann, bob, core]

theorem oids_core :
    ((core.flatten context).value.records.map Record.oid) =
      ["example.org/teams/Ann", "example.org/teams/Bob", "example.org/teams/Core"] := by
  decide

theorem rebuild_flatten_core :
    ∃ rebuilt, RebuiltAs types context core rebuilt ∧ (rebuilt == core) = true :=
  rebuild_flatten types context core complete_core coherent_core (by rw [oids_core]; decide)

end Team

end Remodel
