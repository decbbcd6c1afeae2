import LedSwitch.Proofs.Preferences.Reloading
import LedSwitch.Proofs.Toml.Dated

/-!
What becomes of the other entries of a preferences file when a truth value is set. Tables of plain values are
written back as they are, unless a nested one begins with the key of dates (`Store.setBool_keeps_iff`).
-/

namespace LedSwitch

open Toml

namespace Store

/-- Setting a truth value in a document of ordinary values never fails for the sake of these values. Once it is
    saved, the file holds the document with just that change if and only if no nested table among the other entries
    begins with the key of dates. -/
theorem setBool_keeps_iff {store : FileStore} {world world' : World} {key : String} {value : Bool}
    {outcome : Except Failure Unit} {changed : Store}
    (hordered : (Value.table store.contents).Everywhere Value.KeysOrdered)
    (hordinary : (Value.table store.contents).Everywhere Value.Ordinary)
    (hset : world.run ((file store).setBool key value) = ((outcome, changed), world'))
    (hdevice : world'.disk.isDevice store.path = false) :
    outcome ≠ .error .unserializable ∧ (outcome = .ok () →
      ((∃ bytes text, world'.disk.read store.path = .ok bytes ∧ Utf8.decode bytes = some text ∧
          Table.ofText? text = some (store.contents.insert key (.boolean value))) ↔
        ∀ entry ∈ store.contents, entry.1 ≠ key → entry.2.Everywhere Value.NotDated)) := by
  obtain ⟨hsaves, -⟩ := saves_of_setBool hset
  have hordered' := hordered.insert (Keyed.insert_ordered key (.boolean value) hordered.self)
    (show (Value.boolean value).Everywhere Value.KeysOrdered from trivial)
  have hordinary' : (Value.table (store.contents.insert key (.boolean value))).Everywhere Value.Ordinary :=
    hordinary.insert trivial trivial
  have hflat : Value.areFlat (store.contents.insert key (.boolean value)) = true :=
    Value.areFlat_of_uniform _ (Value.EverywhereIn.imp Value.Ordinary.uniform _ hordinary'.2)
  obtain ⟨text, htext, hread⟩ := Table.ofText?_toText? hflat
  have hdated := Assembly.table?_documentSections_iff hordered' hordinary'
  rw [← hread] at hdated
  refine ⟨?_, ?_⟩
  · rintro rfl
    cases hsaves with
    | unserializable _ hnone => cases htext.symm.trans hnone
    | unprepared _ _ hfailure _ => exact hfailure rfl
  · rintro rfl
    obtain ⟨text', htext', -, hfile⟩ := FileStore.read_of_saves hsaves hdevice
    obtain rfl : text = text' := Option.some.inj (htext.symm.trans htext')
    constructor
    · rintro ⟨bytes, text', hbytes, hdecode, htable⟩ entry hentry hkey
      obtain rfl := Except.ok.inj (hfile.symm.trans hbytes)
      rw [Utf8.decode_encode] at hdecode
      obtain rfl := Option.some.inj hdecode
      exact hdated.1 htable entry (Keyed.mem_insert_of_ne _ hentry hkey)
    · intro hentries
      refine ⟨_, text, hfile, Utf8.decode_encode text, hdated.2 fun entry hentry => ?_⟩
      rcases hordered.self.mem_insert hentry with rfl | ⟨hentry, hkey⟩
      · trivial
      · exact hentries entry hentry hkey

/-- After a truth value was set beside a nested table that begins with the key of dates, the document cannot be
    read. -/
theorem setBool_keeps_dated :
    let store : FileStore := ⟨"p", [("a", .table [(momentKey, .string "x"), ("b", .integer 1)])], false⟩
    let answer := (World.mk ⟨[], []⟩ []).run ((file store).setBool "k" true)
    let text := "k = true\n\n[a]\n\"$__toml_private_datetime\" = 'x'\nb = 1\n"
    (Value.table store.contents).Everywhere Value.Ordinary ∧ answer.1.1 = .ok () ∧
      answer.2.disk.isDevice "p" = false ∧ answer.2.disk.read "p" = .ok (Utf8.encode text) ∧
      (Table.ofText? text).isNone = true :=
  ⟨⟨trivial, ⟨trivial, trivial, trivial, trivial⟩, trivial⟩, rfl, by decide +kernel, by decide +kernel, by decide +kernel⟩

/-- A nested table with an array in it is kept. -/
theorem setBool_keeps_nested :
    let store : FileStore := ⟨"p", [("a", .table [("b", .array [.integer 1, .string "\n"])])], false⟩
    let answer := (World.mk ⟨[], []⟩ []).run ((file store).setBool "k" true)
    ∃ bytes text, answer.2.disk.read "p" = .ok bytes ∧ Utf8.decode bytes = some text ∧
      Table.ofText? text = some (store.contents ++ [("k", .boolean true)]) := by
  have hordered : (Value.table [("a", .table [("b", .array [.integer 1, .string "\n"])])]).Everywhere Value.KeysOrdered :=
    ⟨List.pairwise_singleton _ _, ⟨List.pairwise_singleton _ _, ⟨trivial, trivial, trivial, trivial⟩, trivial⟩, trivial⟩
  have hordinary : (Value.table [("a", .table [("b", .array [.integer 1, .string "\n"])])]).Everywhere Value.Ordinary :=
    ⟨trivial, ⟨trivial, ⟨rfl, trivial, trivial, trivial⟩, trivial⟩, trivial⟩
  have hset : (World.mk ⟨[], []⟩ []).run ((file ⟨"p", [("a", .table [("b", .array [.integer 1, .string "\n"])])],
      false⟩).setBool "k" true) = ((.ok (), _), _) := rfl
  refine ((setBool_keeps_iff hordered hordinary hset (by decide +kernel)).2 rfl).2 fun entry hentry _ => ?_
  obtain rfl : entry = ("a", _) := List.mem_singleton.1 hentry
  exact ⟨show some "b" ≠ some momentKey by decide, ⟨trivial, trivial, trivial, trivial⟩, trivial⟩

end Store

end LedSwitch
