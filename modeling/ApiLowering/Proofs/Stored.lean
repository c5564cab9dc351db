import ApiLowering.Proofs.Components
import ApiLowering.Proofs.IrFileForms
import ApiLowering.Proofs.SoundFiles
import ApiLowering.Proofs.Spelling

/-!
Files that are stored and read again. What a lowered file is written as is read back as the file;
its text is read back as long as no double in it is spelled by digits that a reader takes for
another, and as long as it nests no deeper than a reader goes.
-/

set_option autoImplicit false

namespace ApiLowering

theorem Reading.decode_whole {α : Type} (reader : Reader α) (mode : Mode) (root : Tree) :
    (⟨root, none⟩ : Reading).decode mode reader = reader mode root := by
  rw [decode]
  cases reader mode root <;> rfl

variable {options : Options} {d : ApiDocument} {file : Ir.File}

open JsonText (depthLimit)

/-- A file that is lowered from a document out of JSON is read back from what is written of it, and
from its text if that nests no deeper than a reader goes and each double is read back from its
own. -/
theorem lowered_rereads (parsed : d.Parsed) (done : d.lower options = .ok file) :
    (∀ mode, Ir.File.read mode (Tree.ofJson file.toJson) = .ok file) ∧
    ((Tree.ofJson file.toJson).height ≤ depthLimit →
      (∀ x ∈ file.toJson.reals, (Number.real x).Legible) →
      (JsonText.read file.toJson.render).decode .json Ir.File.read = .ok file ∧
      ∀ depth, (JsonText.read (file.toJson.renderIndented depth)).decode .json Ir.File.read =
        .ok file) := by
  have rereads := Ir.File.rereads (lowered_sound parsed.sound done)
  refine ⟨rereads.back, fun near reals => ?_⟩
  have legible := rereads.sound.legible reals
  have whole : JsonText.clipped 0 file.toJson = Tree.ofJson file.toJson :=
    JsonText.clipped_within _ 0 (by rwa [Nat.zero_add])
  refine ⟨?_, fun depth => ?_⟩
  · rw [JsonText.read_render legible, whole, Reading.decode_whole]
    exact rereads.back .json
  · rw [JsonText.read_renderIndented legible, whole, Reading.decode_whole]
    exact rereads.back .json

theorem ApiDocument.ofJsonText_render {value : Json} (sound : value.Sound)
    (reals : ∀ x ∈ value.reals, (Number.real x).Legible)
    (near : (Tree.ofJson value).height ≤ depthLimit) :
    ApiDocument.ofJsonText value.render = ApiDocument.ofJson value := by
  rw [ofJsonText, JsonText.read_render (sound.legible reals),
    JsonText.clipped_within _ 0 (by rwa [Nat.zero_add]), Reading.decode_whole, ofJson]

-- The document is there, and is lowered to a file that passes the check.
def lowersTo (parsed : Except DocumentError ApiDocument) (check : Ir.File → Bool) : Bool :=
  parsed.toOption.any fun d => (d.lower .default).toOption.any check

theorem lowersTo_ok {parsed : Except DocumentError ApiDocument} {check : Ir.File → Bool}
    (lowers : lowersTo parsed check = true) :
    ∃ d file, parsed = .ok d ∧ d.lower .default = .ok file ∧ check file = true := by
  cases parsed with
  | error e => cases lowers
  | ok d =>
    obtain ⟨file, done, checked⟩ := ok_of_any lowers
    exact ⟨d, file, rfl, done, checked⟩

-- The text of a document whose only component is the schema `A`.
def documentText (schema : String) : String :=
  "\x7b\"openapi\":\"3.1.0\",\"info\":\x7b\"title\":\"t\"\x7d,"
    ++ "\"components\":\x7b\"schemas\":\x7b\"A\":" ++ schema ++ "\x7d\x7d\x7d"

def kitchenScale : String :=
  documentText ("\x7b\"properties\":\x7b\"grams\":\x7b\"type\":\"number\",\"minimum\":0.5\x7d,"
    ++ "\"unit\":\x7b\"enum\":[\"g\",\"kg\"]\x7d\x7d\x7d")

theorem kitchenScale_rereads :
    ∃ d file, ApiDocument.ofJsonText kitchenScale = .ok d ∧ d.lower .default = .ok file ∧
      file.toJson.reals ≠ [] ∧
      (JsonText.read file.toJson.render).decode .json Ir.File.read = .ok file := by
  have lowers : lowersTo (ApiDocument.ofJsonText kitchenScale) (fun file =>
      decide ((Tree.ofJson file.toJson).height ≤ depthLimit ∧ file.toJson.reals ≠ [] ∧
        ∀ x ∈ file.toJson.reals, (Number.real x).Legible)) = true := by
    decide +kernel
  obtain ⟨d, file, parsed, done, checked⟩ := lowersTo_ok lowers
  obtain ⟨near, some, reals⟩ := of_decide_eq_true checked
  exact ⟨d, file, parsed, done, some, ((lowered_rereads (.text parsed) done).2 near reals).1⟩

-- The fewest digits that spell this bound are read as the next double.
def fineScale : String :=
  documentText "\x7b\"type\":\"number\",\"minimum\":0.9032892184011070434\x7d"

-- Lists within lists. The enumeration in the innermost one nests deeper in a file than in a
-- document.
def nestedLists : Nat → Json
  | 0 => .object [("enum", .list [.text "a"])]
  | depth + 1 => .object [("items", nestedLists depth)]

theorem nestedLists_sound (depth : Nat) : (nestedLists depth).Sound := by
  induction depth with
  | zero =>
    have values : (Json.list [.text "a"]).Sound :=
      .list (List.forall_mem_singleton.mpr (.text "a"))
    exact .object (List.forall_mem_singleton.mpr values)
  | succ depth ih => exact .object (List.forall_mem_singleton.mpr ih)

-- A document whose only component is the schema `A`.
def withSchema (schema : Json) : Json :=
  .object [("openapi", .text "3.1.0"), ("info", .object [("title", .text "t")]),
    ("components", .object [("schemas", .object [("A", schema)])])]

theorem withSchema_sound {schema : Json} (sound : schema.Sound) : (withSchema schema).Sound := by
  have info : (Json.object [("title", .text "t")]).Sound :=
    .object (List.forall_mem_singleton.mpr (.text "t"))
  have schemas : (Json.object [("A", schema)]).Sound :=
    .object (List.forall_mem_singleton.mpr sound)
  have components : (Json.object [("schemas", .object [("A", schema)])]).Sound :=
    .object (List.forall_mem_singleton.mpr schemas)
  exact .object (List.forall_mem_cons.mpr ⟨.text "3.1.0",
    List.forall_mem_cons.mpr ⟨info, List.forall_mem_singleton.mpr components⟩⟩)

/-- The text of a lowered file may spell a double that is read back as another, and a file may nest
deeper than its document does, and than a reader goes. -/
theorem rereading_fails :
    (∃ d file, ApiDocument.ofJsonText fineScale = .ok d ∧ d.lower .default = .ok file ∧
      (Tree.ofJson file.toJson).height ≤ depthLimit ∧
      (JsonText.read file.toJson.render).decode .json Ir.File.read ≠ .ok file) ∧
    ∃ d file, ApiDocument.ofJsonText (withSchema (nestedLists 122)).render = .ok d ∧
      d.lower .default = .ok file ∧ file.toJson.reals = [] ∧
      (JsonText.read file.toJson.render).decode .json Ir.File.read ≠ .ok file := by
  have drifts : lowersTo (ApiDocument.ofJsonText fineScale) (fun file =>
      decide ((Tree.ofJson file.toJson).height ≤ depthLimit) &&
        !((JsonText.read file.toJson.render).decode .json Ir.File.read).toOption.any fun again =>
          again.toJson.reals == file.toJson.reals) = true := by
    decide +kernel
  have refused : lowersTo (ApiDocument.ofJson (withSchema (nestedLists 122))) (fun file =>
      file.toJson.reals.isEmpty &&
        (Ir.File.read .json (JsonText.clipped 0 file.toJson)).toOption.isNone) = true := by
    decide +kernel
  constructor
  · obtain ⟨d, file, parsed, done, checked⟩ := lowersTo_ok drifts
    obtain ⟨near, other⟩ := Bool.and_eq_true_iff.mp checked
    refine ⟨d, file, parsed, done, of_decide_eq_true near, fun back => ?_⟩
    rw [back] at other
    simp only [Except.toOption, Option.any_some, BEq.rfl, Bool.not_true, Bool.false_eq_true] at other
  · obtain ⟨d, file, parsed, done, checked⟩ := lowersTo_ok refused
    obtain ⟨none, failed⟩ := Bool.and_eq_true_iff.mp checked
    have sound : (withSchema (nestedLists 122)).Sound := withSchema_sound (nestedLists_sound 122)
    have text := ApiDocument.ofJsonText_render sound (by decide +kernel) (by decide +kernel)
    have reals : file.toJson.reals = [] := List.isEmpty_iff.mp none
    have known : d.Parsed := .text (text.trans parsed)
    have legible : file.toJson.Legible := by
      refine (Ir.File.rereads (lowered_sound known.sound done)).sound.legible fun x held => ?_
      rw [reals] at held
      exact absurd held List.not_mem_nil
    refine ⟨d, file, text.trans parsed, done, reals, fun back => ?_⟩
    rw [JsonText.read_render legible, Reading.decode_whole] at back
    rw [back] at failed
    cases failed

end ApiLowering
