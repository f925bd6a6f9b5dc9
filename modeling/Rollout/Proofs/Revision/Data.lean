import Rollout.Api.Adapter
import Rollout.Proofs.Json.Unique
import Rollout.Proofs.Patch.Misfit
import Rollout.Revision.Basic

/-!
# The bytes of recorded data

What a revision records is kept as bytes, and not as the document that was listed. The bytes
are merged into the bytes of a live object when the revision is looked at, and they are read
when the patch is sent. Each time a document has gone through a writer and a reader that know
nothing of each other, and what reaches the cluster is what came out of the second.

Nothing is lost on the way (`Revision.bytes_stand_for_data`). That is more than that bytes can
be read back: for the merge it takes that the object's bytes, which have other separators, are
read as that object, that what is merged is written whatever it holds, and that no failure of
the merge is taken for one of reading. Bytes beyond the limits of the reader are no
exception. They stand for nothing, and are never taken for another document.
-/

namespace Rollout

open Json (everywhere isLegiblePart written WithinLimits Portable)

/-! ## Documents as bytes -/

/-- Separators that are read are printable. -/
theorem Separators.IsPlain.isAscii {sep : Separators} (h : sep.IsPlain) : sep.IsAscii := by
  have hblanks : ∀ n, ∀ c ∈ List.replicate n ' ', Rollout.IsAscii c := by
    intro n c hc
    rw [List.eq_of_mem_replicate hc]
    decide
  obtain ⟨⟨n, hitem⟩, m, hvalue⟩ := h
  refine ⟨?_, ?_⟩
  · rw [hitem, List.forall_mem_cons]
    exact ⟨by decide, hblanks n⟩
  · rw [hvalue, List.forall_mem_cons]
    exact ⟨by decide, hblanks m⟩

namespace Json

/-- **A document as bytes** with these separators. Without blanks it is `Json.encode`. -/
def encodeWith (sep : Separators) (j : Json) : Bytes :=
  (written sep j).map (fun c => c.toNat.toUInt8)

theorem encodeWith_compact : encodeWith Separators.compact = encode := rfl

variable {sep : Separators}

/-- **The bytes of a document are printable.** -/
theorem ascii_encodeWith (hsep : sep.IsAscii) (j : Json) :
    ∀ b ∈ encodeWith sep j, 0x20 ≤ b.toNat ∧ b.toNat < 0x7F := by
  intro b hb
  obtain ⟨c, hc, rfl⟩ := List.mem_map.mp hb
  have hascii := ascii_written hsep j c hc
  rw [toNat_byte hascii]
  exact hascii

/-- **The bytes of a document that travels hold it**, blanks or not. -/
theorem decode_encodeWith (hsep : sep.IsPlain) {j : Json} (h : Portable j) :
    decode (encodeWith sep j) = .ok j :=
  (decode_ascii (ascii_written hsep.isAscii j)).trans (parse_written hsep h)

end Json

/-! ## What is recorded -/

/-- **The document that recorded data stands for**: an empty object if there is none. -/
def dataDocument : Option Json → Json
  | none => .obj []
  | some .null => .obj []
  | some v => v

theorem encodeData_eq (data : Option Json) : encodeData data = Json.encode (dataDocument data) := by
  rcases data with - | v
  · rfl
  · cases v <;> rfl

/-- **A snapshot's data is the bytes of what was recorded.** -/
theorem Snapshot.data_eq_encode_of_ofJson {j : Json} {s : Snapshot}
    (h : Snapshot.ofJson j = .ok s) :
    ∃ raw, j = .obj raw ∧ s.data = Json.encode (dataDocument (Fields.get? raw "data")) := by
  unfold Snapshot.ofJson at h
  obtain ⟨raw, hraw, h⟩ := Outcome.bind_eq_ok_iff.mp h
  obtain ⟨_, -, h⟩ := Outcome.bind_eq_ok_iff.mp h
  obtain ⟨_, -, h⟩ := Outcome.bind_eq_ok_iff.mp h
  obtain ⟨_, -, h⟩ := Outcome.bind_eq_ok_iff.mp h
  obtain ⟨_, -, h⟩ := Outcome.bind_eq_ok_iff.mp h
  obtain ⟨_, -, h⟩ := Outcome.bind_eq_ok_iff.mp h
  obtain ⟨_, -, h⟩ := Outcome.bind_eq_ok_iff.mp h
  cases h
  refine ⟨raw, ?_, encodeData_eq _⟩
  cases j with
  | obj fs => exact congrArg Json.obj (Except.ok.inj hraw)
  | _ => cases hraw

/-- A patch is sent as the document that its bytes hold. -/
theorem Api.answer_patchWorkload_of_decode {patch : Bytes} {body : Json}
    (h : Json.decode patch = .ok body) (seconds : Int) (kind : Kind) (space name : Text) :
    Api.answer seconds (.patchWorkload kind space name patch)
      = .ask (.patch kind space name body)
          fun a => .done (.ok (Api.workloadPatched kind space name a)) := by
  simp only [Api.answer, h]

namespace Revision

/-- **The bytes of recorded data stand for it.** They are printable ASCII, and exactly if the
recorded document is within the limits of the reader a document is read from them, which is
the recorded one. Then it is sent as it was recorded. If it is an object, its bytes merged into
those of any object that travels are the bytes of the two objects merged, or the same
failure. -/
theorem bytes_stand_for_data {raw : Fields Json} {s : Snapshot} {recorded : Json}
    (hs : Snapshot.ofJson (.obj raw) = .ok s)
    (hrecorded : dataDocument (Fields.get? raw "data") = recorded)
    (hlegible : everywhere isLegiblePart recorded = true) :
    (∀ b ∈ s.data, 0x20 ≤ b.toNat ∧ b.toNat < 0x7F)
      ∧ (∀ j, Json.decode s.data = .ok j ↔ j = recorded ∧ WithinLimits recorded)
      ∧ (WithinLimits recorded →
        (∀ seconds kind space name,
          Api.answer seconds (.patchWorkload kind space name s.data)
            = .ask (.patch kind space name recorded)
                fun a => .done (.ok (Api.workloadPatched kind space name a)))
        ∧ ∀ patch, recorded = .obj patch → ∀ base, Portable (.obj base) →
          ∀ sep : Separators, sep.IsPlain →
            Patch.mergedBytes (Json.encodeWith sep (.obj base)) s.data
              = (Patch.mergedObject base patch).map fun merged => Json.encode (.obj merged)) := by
  obtain ⟨_, hraw, hdata⟩ := Snapshot.data_eq_encode_of_ofJson hs
  rw [← Json.obj.inj hraw, hrecorded] at hdata
  have hiff : ∀ j, Json.decode (Json.encode recorded) = .ok j
      ↔ j = recorded ∧ WithinLimits recorded := fun _ => Json.decode_encode_eq_ok_iff hlegible
  have hascii := Json.ascii_encodeWith Separators.isAscii_compact recorded
  rw [Json.encodeWith_compact] at hascii
  rw [hdata]
  refine ⟨hascii, hiff, fun hlimits => ?_⟩
  have hread := (hiff recorded).mpr ⟨rfl, hlimits⟩
  refine ⟨Api.answer_patchWorkload_of_decode hread, fun patch hpatch base hbase sep hsep => ?_⟩
  rw [hpatch] at hread ⊢
  exact Patch.mergedBytes_of_decode (Json.decode_encodeWith hsep hbase) hread

/-- A template with whatever has to be escaped in its texts, and with numbers and containers of
all sorts. -/
def oddTemplate : Fields Json := [
  ("", .int (-123456789012345678901234567890)),
  ("quoted\"\\", .str (Text.ofChars ['\t', '\x07', '/', '\x7f', 'é', '\u2028', '😀'])),
  ("empty", .arr [.arr [], .obj []]),
  ("nested", .arr [.arr [.null, .bool true], .obj [("b", .int 0), ("a", .str "")]])]

/-- The data of a revision that replaces the template. -/
def oddPatch : Fields Json := [
  ("spec", .obj [
    ("replicas", .null), ("template", .obj (("$patch", .str "replace") :: oddTemplate))])]

/-- The revision. -/
def oddRevision : Fields Json :=
  [("revision", .int 3), ("data", .obj oddPatch)]

/-- A live object that its data is merged into. -/
def oddBase : Fields Json := [
  ("kind", .str "DaemonSet"),
  ("spec", .obj [("replicas", .int 2), ("template", .obj [("a", .int 1)])])]

/-- **The bytes of what has to be escaped stand for it**, and are merged as it is. -/
theorem bytes_stand_for_data_oddPatch :
    ∃ s : Snapshot,
      Snapshot.ofJson (.obj oddRevision) = .ok s
        ∧ Json.decode s.data = .ok (.obj oddPatch)
        ∧ Patch.mergedBytes (Json.encodeWith Separators.spaced (.obj oddBase)) s.data
          = .ok (Json.encode (.obj [
              ("kind", .str "DaemonSet"), ("spec", .obj [("template", .obj oddTemplate)])])) := by
  have hlegible : everywhere isLegiblePart (.obj oddPatch) = true := by decide
  have hlimits : WithinLimits (.obj oddPatch) := ⟨by decide, by decide⟩
  have hbase : Portable (.obj oddBase) := ⟨by decide, by decide⟩
  have hmerged : Patch.mergedObject oddBase oddPatch = .ok [
      ("kind", .str "DaemonSet"), ("spec", .obj [("template", .obj oddTemplate)])] := rfl
  have hdata : dataDocument (Fields.get? oddRevision "data") = .obj oddPatch := rfl
  obtain ⟨s, hs⟩ : ∃ s, Snapshot.ofJson (.obj oddRevision) = .ok s := ⟨_, rfl⟩
  obtain ⟨-, hread, htravel⟩ := bytes_stand_for_data hs hdata hlegible
  obtain ⟨-, hbytes⟩ := htravel hlimits
  refine ⟨s, hs, (hread _).mpr ⟨rfl, hlimits⟩, ?_⟩
  rw [hbytes oddPatch rfl oddBase hbase Separators.spaced Separators.isPlain_spaced, hmerged]
  rfl

end Revision
end Rollout
