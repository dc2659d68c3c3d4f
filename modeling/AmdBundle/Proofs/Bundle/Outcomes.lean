import AmdBundle.Bundle
import AmdBundle.Proofs.Document.Knots

/-!
# What comes of bundling a text

A text is bundled, it is refused, or nothing comes of it at all. The files have a say only in what the
bundle is.

* `inject_eq_ok_iff`, `inject_eq_error_iff`, `inject_eq_none_iff` : the three ends of putting fragments
  in front of a text;
* `bundle_eq_ok_iff`, `bundle_eq_error_iff`, `bundle_eq_none_iff` : those of bundling it.
-/

set_option autoImplicit false

namespace AmdBundle

namespace Fragment
variable {fs : FileTree} {root : Path} {code out : Text} {e : BundleError}

theorem inject_eq_ok_iff : inject fs root code = some (.ok out) ↔
    ∃ doc body, Document.read code = .ok doc ∧ doc.remap? code = some body ∧
      out = ['\n'].intercalate (doc.resources.map (fragment fs root) ++ [body]) := by
  unfold inject
  cases Document.read code with
  | error e => simp
  | ok doc => simp [@eq_comm _ out]

theorem inject_eq_error_iff :
    inject fs root code = some (.error e) ↔ Document.read code = .error e := by
  unfold inject
  cases Document.read code with
  | error e => simp
  | ok doc => simp

theorem inject_eq_none_iff : inject fs root code = none ↔
    ∃ doc, Document.read code = .ok doc ∧ doc.remap? code = none := by
  unfold inject
  cases Document.read code with
  | error e => simp
  | ok doc => simp

end Fragment

variable {fs : FileTree} {o : BundleOptions} {code out : Text} {e : BundleError}

theorem bundle_eq_ok_iff : bundle fs o code = some (.ok out) ↔
    ∃ doc body, Document.read code = .ok doc ∧ doc.remap? code = some body ∧
      out = Loader.wrap o.loader
        (['\n'].intercalate (doc.resources.map (Fragment.fragment fs o.projectRoot) ++ [body])) := by
  rw [bundle, Option.map_eq_some_iff]
  constructor
  · rintro ⟨_ | injected, hinject, hwrap⟩
    · cases hwrap
    · obtain rfl := Except.ok.inj hwrap
      obtain ⟨doc, body, hread, hbody, rfl⟩ := Fragment.inject_eq_ok_iff.mp hinject
      exact ⟨doc, body, hread, hbody, rfl⟩
  · rintro ⟨doc, body, hread, hbody, rfl⟩
    exact ⟨_, Fragment.inject_eq_ok_iff.mpr ⟨doc, body, hread, hbody, rfl⟩, rfl⟩

theorem bundle_eq_error_iff :
    bundle fs o code = some (.error e) ↔ Document.read code = .error e := by
  rw [bundle, Option.map_eq_some_iff]
  constructor
  · rintro ⟨_ | injected, hinject, hwrap⟩
    · obtain rfl := Except.error.inj hwrap
      exact Fragment.inject_eq_error_iff.mp hinject
    · cases hwrap
  · exact fun hread => ⟨_, Fragment.inject_eq_error_iff.mpr hread, rfl⟩

/-- **Nothing comes of a text** exactly if it is knotted. -/
theorem bundle_eq_none_iff : bundle fs o code = none ↔ Document.IsKnotted code := by
  rw [bundle, Option.map_eq_none_iff, Fragment.inject_eq_none_iff, Document.isKnotted_iff]

end AmdBundle
