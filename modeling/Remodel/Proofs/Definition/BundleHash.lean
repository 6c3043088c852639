import Remodel.Proofs.Codec.Hex
import Remodel.Proofs.Definition.Bundle

/-!
# What the hash of a bundle tells apart

The hash of a bundle is the digest of the contents of its files, taken one after another in the
order of the walk.  The paths of the files are not part of it, nor is where one content ends and the
next one begins (`bundleHash_same`).  As long as the digest tells two inputs apart, the hash does:
bundles whose contents differ when they are taken one after another have different hashes
(`bundleHash_separates`).  Among them are all that differ in the content of one file, and all that
have files of the same sizes with different contents.

## Strategy

Two directories are compared by what is given to the digest, since the hexadecimal text of a digest
is as good as the digest (`hexDigest_inj`).  No digest is known to have no collisions; that it has
none is asked for the two inputs only.
-/

namespace Remodel

theorem Codec.Sha256.hexDigest_inj {first second : Codec.Bytes} :
    hexDigest first = hexDigest second ↔ digest first = digest second :=
  Codec.Hex.encode_injective.eq_iff

namespace Definition

/-- What the digest of a bundle is taken of: the contents of the definition files below a directory,
one after another. -/
def Selection.hashed (selection : Selection) (files : FileTree) (directory : String) :
    Codec.Bytes :=
  (selection.filesBelow files directory).flatMap FoundFile.content

theorem hash_of_loadDirectory {types : TypeTable} {files : FileTree} {directory : String}
    {selection : Selection} {bundle : Bundle}
    (h : (loadDirectory types files directory selection).result = .ok bundle) :
    bundle.hash = Codec.Sha256.hexDigest (selection.hashed files directory) :=
  (loadDirectory_eq_ok_iff.mp h).2

section TwoDirectories

variable {types₁ types₂ : TypeTable} {files₁ files₂ : FileTree} {directory₁ directory₂ : String}
  {selection₁ selection₂ : Selection} {bundle₁ bundle₂ : Bundle}

/-- **The hash of a bundle tells contents apart.**  If the digest tells the two inputs apart, then
bundles have different hashes if the contents of their files differ when they are taken one after
another.  So have bundles that differ in the content of one file, and bundles that have different
contents of the same sizes.  The paths of the files make no difference. -/
theorem bundleHash_separates
    (h₁ : (loadDirectory types₁ files₁ directory₁ selection₁).result = .ok bundle₁)
    (h₂ : (loadDirectory types₂ files₂ directory₂ selection₂).result = .ok bundle₂)
    (hdigest : selection₁.hashed files₁ directory₁ ≠ selection₂.hashed files₂ directory₂ →
      Codec.Sha256.digest (selection₁.hashed files₁ directory₁) ≠
        Codec.Sha256.digest (selection₂.hashed files₂ directory₂)) :
    (selection₁.hashed files₁ directory₁ ≠ selection₂.hashed files₂ directory₂ →
      bundle₁.hash ≠ bundle₂.hash) ∧
    (∀ before content₁ content₂ after,
      (selection₁.filesBelow files₁ directory₁).map FoundFile.content =
        before ++ content₁ :: after →
      (selection₂.filesBelow files₂ directory₂).map FoundFile.content =
        before ++ content₂ :: after →
      content₁ ≠ content₂ → bundle₁.hash ≠ bundle₂.hash) ∧
    ((selection₁.filesBelow files₁ directory₁).map (fun found => found.content.length) =
        (selection₂.filesBelow files₂ directory₂).map (fun found => found.content.length) →
      (selection₁.filesBelow files₁ directory₁).map FoundFile.content ≠
        (selection₂.filesBelow files₂ directory₂).map FoundFile.content →
      bundle₁.hash ≠ bundle₂.hash) ∧
    ((selection₁.filesBelow files₁ directory₁).map FoundFile.content =
        (selection₂.filesBelow files₂ directory₂).map FoundFile.content →
      bundle₁.hash = bundle₂.hash) := by
  have hhash₁ := hash_of_loadDirectory h₁
  have hhash₂ := hash_of_loadDirectory h₂
  have hjoined : selection₁.hashed files₁ directory₁ ≠ selection₂.hashed files₂ directory₂ →
      bundle₁.hash ≠ bundle₂.hash := by
    intro hne heq
    rw [hhash₁, hhash₂, Codec.Sha256.hexDigest_inj] at heq
    exact hdigest hne heq
  refine ⟨hjoined, ?_, ?_, ?_⟩
  · intro before content₁ content₂ after hcontents₁ hcontents₂ hne
    refine hjoined fun heq => hne ?_
    rw [Selection.hashed, Selection.hashed, List.flatMap_def, List.flatMap_def, hcontents₁,
      hcontents₂] at heq
    simpa using heq
  · intro hsizes hne
    refine hjoined fun heq => hne (List.eq_iff_flatten_eq.mpr ⟨?_, ?_⟩)
    · rw [← List.flatMap_def, ← List.flatMap_def]
      exact heq
    · rw [List.map_map, List.map_map]
      exact hsizes
  · intro hcontents
    rw [hhash₁, hhash₂, Selection.hashed, List.flatMap_def, hcontents, ← List.flatMap_def]
    rfl

end TwoDirectories

/-! ### Directories with the same hash -/

namespace Compared

def table : TypeTable := TypeTable.empty.insertAll [Descriptor.named "A", Descriptor.named "B"]

def there : String := "<transformation source=\"A\" target=\"B\"/>"

def back : String := "<transformation source=\"B\" target=\"A\"/>"

/-- A directory for each: two files, another name for one of them, all that they hold in one of
them; a file that is empty, and one that is not. -/
def files : FileTree :=
  let directoryOf := fun entries : List (String × String) =>
    FileNode.directory (entries.map fun entry => (entry.1, .file entry.2.toUTF8.data.toList))
  ⟨.directory
    [("blank", directoryOf [("a.transformation", " ")]),
      ("empty", directoryOf [("a.transformation", "")]),
      ("moved", directoryOf [("a.transformation", there ++ back), ("b.transformation", "")]),
      ("plain", directoryOf [("a.transformation", there), ("b.transformation", back)]),
      ("renamed", directoryOf [("a.transformation", there), ("c.transformation", back)])], []⟩

/-- The relative paths and the contents of the definition files of a directory. -/
def held (directory : String) : List (String × Codec.Bytes) :=
  (defaultSelection.filesBelow files directory).map fun found => (found.relative, found.content)

theorem exists_bundle : ∀ directory ∈ ["plain", "renamed", "moved", "blank", "empty"], ∃ bundle,
    (loadDirectory table files directory defaultSelection).result = .ok bundle := by
  have hok : ∀ directory ∈ ["plain", "renamed", "moved", "blank", "empty"],
      (loadDirectory table files directory defaultSelection).result.isOk = true := by
    decide +kernel
  exact fun directory hdirectory => isOk_iff.mp (hok directory hdirectory)

theorem bundleHash_separates_blank : ∃ blank empty,
    (loadDirectory table files "blank" defaultSelection).result = .ok blank ∧
      (loadDirectory table files "empty" defaultSelection).result = .ok empty ∧
      defaultSelection.hashed files "blank" ≠ defaultSelection.hashed files "empty" ∧
      Codec.Sha256.digest (defaultSelection.hashed files "blank") ≠
        Codec.Sha256.digest (defaultSelection.hashed files "empty") ∧
      blank.hash ≠ empty.hash := by
  obtain ⟨blank, hblank⟩ := exists_bundle "blank" (by decide)
  obtain ⟨empty, hempty⟩ := exists_bundle "empty" (by decide)
  have hdigest : Codec.Sha256.digest (defaultSelection.hashed files "blank") ≠
      Codec.Sha256.digest (defaultSelection.hashed files "empty") := by
    decide +kernel
  have hhashed := fun h => hdigest (congrArg Codec.Sha256.digest h)
  have hseparates := bundleHash_separates hblank hempty fun _ => hdigest
  exact ⟨blank, empty, hblank, hempty, hhashed, hdigest, hseparates.1 hhashed⟩

/-- Bundles with different files may have the same hash, whatever the digest tells apart: under
another name, or with the same names and the contents cut at another place. -/
theorem bundleHash_same : ∃ plain renamed moved,
    (loadDirectory table files "plain" defaultSelection).result = .ok plain ∧
      (loadDirectory table files "renamed" defaultSelection).result = .ok renamed ∧
      (loadDirectory table files "moved" defaultSelection).result = .ok moved ∧
      held "plain" ≠ held "renamed" ∧ plain.hash = renamed.hash ∧
      held "plain" ≠ held "moved" ∧ plain.hash = moved.hash := by
  obtain ⟨plain, hplain⟩ := exists_bundle "plain" (by decide)
  obtain ⟨renamed, hrenamed⟩ := exists_bundle "renamed" (by decide)
  obtain ⟨moved, hmoved⟩ := exists_bundle "moved" (by decide)
  have hsame : ∀ {directory : String} {bundle : Bundle},
      (loadDirectory table files directory defaultSelection).result = .ok bundle →
      defaultSelection.hashed files "plain" = defaultSelection.hashed files directory →
      plain.hash = bundle.hash := by
    intro directory bundle hbundle hhashed
    rw [hash_of_loadDirectory hplain, hash_of_loadDirectory hbundle, hhashed]
  refine ⟨plain, renamed, moved, hplain, hrenamed, hmoved, ?_, hsame hrenamed ?_, ?_,
    hsame hmoved ?_⟩ <;> decide +kernel

end Compared

end Definition

end Remodel
