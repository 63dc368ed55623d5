import DocOutline.Proofs.Store.Unreadable
import DocOutline.Proofs.Tools.Sparing
import DocOutline.Proofs.Tools.Workspaces

/-!
# Workspaces beside files that are no snapshots

Whether the list of workspaces comes about is a matter of the values in the files that are taken for snapshots alone
(`listWorkspaces_of_files`). Bytes that are no text, texts that are no values and values that lack a member do no more than leave
a warning. A value of the wrong type in one file hides the workspaces of all others, and so does a text that is nested too deep to
be read (`listWorkspaces_hidden`).
-/

namespace DocOutline.Tools

variable {store : Store} {site : Site} {world opened : World}

/-- **The list of workspaces comes about unless a file holds a value of the wrong type or a text that is nested too
deep.** It has one entry for each file with a snapshot, and there is one warning about each other file
(`list_workspaces`). -/
theorem listWorkspaces_of_files (limit : Limit) (hsound : world.disk.IsSound) (hsite : IsNamed site.folder)
    (hfolder : world.disk.item? site.folder = some .folder)
    (hopened : Store.openIn site.storage? site world = (.ok store, opened)) :
    ((∀ name ∈ store.indexNames site.folder opened.disk, ¬ (store.readingAt limit site.folder opened.disk name).Hides) →
      ∃ entries warnings,
        store.ListedAs limit site.folder opened.disk (store.indexNames site.folder opened.disk) entries warnings ∧
        listWorkspacesWithin limit site world =
          (.ok (workspacesAnswer entries), { opened with records := opened.records ++ warnings })) ∧
    ∀ name ∈ store.indexNames site.folder opened.disk, (store.readingAt limit site.folder opened.disk name).Hides →
      ∃ fault after, (fault.family = .type ∨ fault = .tooDeep) ∧
        listWorkspacesWithin limit site world = (.error (.access fault), after) := by
  have hbase := baseFolder_of_openIn hopened world
  obtain ⟨hfits, hopen⟩ := Store.isOpen_of_openIn hfolder hopened
  have hsound' : opened.disk.IsSound := by
    rw [(openIn_ok hbase hopened).2]
    exact hsound.makeFolders hsite (hasNames_baseFolder hbase)
  constructor
  · intro h
    obtain ⟨entries, warnings, hlist, hlisted⟩ := Store.listWithin_of_files hfits hopen hsound' limit h
    exact ⟨entries, warnings, hlisted, listWorkspacesWithin_apply hopened hlist⟩
  · intro name hname h
    obtain ⟨fault, after, hfault, hlist⟩ := Store.listWithin_of_hides hfits hopen hsound' limit hname h
    exact ⟨fault, after, hfault, listWorkspacesWithin_apply hopened hlist⟩

/-! ## Three files -/

/-- A world with a store that holds the snapshot of a workspace, a text that breaks off, and a third file. -/
def mixedWorld (third : String) : World :=
  ⟨⟨[(["work"], .folder), (["work", "index"], .folder),
    (["work", "index", "cut.json"], .file (Text.encode "\x7b\"workspace\":")),
    (["work", "index", "good.json"], .file (Text.encode
      "\x7b\"workspace\":\"w\",\"indexed_at\":\"t\",\"symbols\":[],\"documents\":[]\x7d")),
    (["work", "index", "third.json"], .file (Text.encode third))]⟩, []⟩

theorem openIn_mixedWorld (third : String) : Store.openIn (headedSite "index").storage? (headedSite "index") (mixedWorld third) =
    (.ok Store.indexStore, mixedWorld third) := rfl

theorem indexNames_mixedWorld (third : String) :
    Store.indexStore.indexNames (headedSite "index").folder (mixedWorld third).disk = ["cut.json", "good.json", "third.json"] := by
  cbv

/-- What is in the third file does not matter to the first two. -/
theorem entryHeld?_mixedWorld_eq (third : String) {name : String} (h : name = "cut.json" ∨ name = "good.json") :
    Store.indexStore.entryHeld? none (headedSite "index").folder (mixedWorld third).disk name =
      Store.indexStore.entryHeld? none (headedSite "index").folder (mixedWorld "").disk name := by
  have hitem : (mixedWorld third).disk.item? (Store.indexStore.basePlace (headedSite "index").folder ++ [name]) =
      (mixedWorld "").disk.item? (Store.indexStore.basePlace (headedSite "index").folder ++ [name]) := by
    rcases h with rfl | rfl <;> rfl
  simp only [Store.entryHeld?, Store.readingAt, hitem]

theorem entryHeld?_mixedWorld (third : String) :
    (∃ entry, Store.indexStore.entryHeld? none (headedSite "index").folder (mixedWorld third).disk "good.json" = some entry) ∧
      Store.indexStore.entryHeld? none (headedSite "index").folder (mixedWorld third).disk "cut.json" = none := by
  have hgood : (Store.indexStore.entryHeld? none (headedSite "index").folder (mixedWorld "").disk "good.json").isSome := by
    decide +kernel
  have hcut : (Store.indexStore.entryHeld? none (headedSite "index").folder (mixedWorld "").disk "cut.json").isNone := by
    decide +kernel
  rw [entryHeld?_mixedWorld_eq third (.inr rfl), entryHeld?_mixedWorld_eq third (.inl rfl)]
  exact ⟨Option.isSome_iff_exists.mp hgood, Option.isNone_iff_eq_none.mp hcut⟩

theorem listWorkspaces_of_files_mixed :
    ∃ (entry : Json) (warnings : List Log.Record),
      Store.indexStore.HoldsEntry none (headedSite "index").folder (mixedWorld "\x7b\x7d").disk "good.json" entry ∧
      warnings.length = 2 ∧ listWorkspaces (headedSite "index") (mixedWorld "\x7b\x7d") =
        (.ok (workspacesAnswer [entry]), { mixedWorld "\x7b\x7d" with records := warnings }) := by
  obtain ⟨hlists, -⟩ := listWorkspaces_of_files none (by decide +kernel) (by decide) (by decide +kernel)
    (openIn_mixedWorld "\x7b\x7d")
  rw [indexNames_mixedWorld] at hlists
  obtain ⟨entries, warnings, hlisted, hrun⟩ := hlists (by decide +kernel)
  obtain ⟨hentries, hlength⟩ := hlisted.eq_filterMap
  obtain ⟨⟨entry, hgood⟩, hcut⟩ := entryHeld?_mixedWorld "\x7b\x7d"
  have hthird : Store.indexStore.entryHeld? none (headedSite "index").folder (mixedWorld "\x7b\x7d").disk "third.json" = none :=
    Option.isNone_iff_eq_none.mp (by decide +kernel)
  obtain rfl : entries = [entry] := by rw [hentries]; simp only [List.filterMap_cons, hcut, hgood, hthird, List.filterMap_nil]
  have hcount : warnings.length = 2 := by
    simp only [List.length_cons, List.length_nil] at hlength
    omega
  exact ⟨entry, warnings, Store.entryHeld?_eq_some.mp hgood, hcount, hrun⟩

/-- A file that hides the others does so beside a file with an entry. -/
theorem hidden_of_hides {limit : Limit} {third : String}
    (hgood : (Store.indexStore.entryHeld? limit (headedSite "index").folder (mixedWorld third).disk "good.json").isSome = true)
    (hhides : (Store.indexStore.readingAt limit (headedSite "index").folder (mixedWorld third).disk "third.json").Hides)
    (hsound : (mixedWorld third).disk.IsSound) :
    (∃ entry, Store.indexStore.HoldsEntry limit (headedSite "index").folder (mixedWorld third).disk "good.json" entry) ∧
      ∃ fault after, listWorkspacesWithin limit (headedSite "index") (mixedWorld third) = (.error (.access fault), after) := by
  obtain ⟨entry, hentry⟩ := Option.isSome_iff_exists.mp hgood
  refine ⟨⟨entry, Store.entryHeld?_eq_some.mp hentry⟩, ?_⟩
  have hmem : "third.json" ∈ Store.indexStore.indexNames (headedSite "index").folder (mixedWorld third).disk := by
    rw [indexNames_mixedWorld]
    decide
  have hfolder : (mixedWorld third).disk.item? (headedSite "index").folder = some .folder := rfl
  obtain ⟨hfits, hopen⟩ := Store.isOpen_of_openIn hfolder (openIn_mixedWorld third)
  obtain ⟨fault, after, -, hlist⟩ := Store.listWithin_of_hides hfits hopen hsound limit hmem hhides
  exact ⟨fault, after, listWorkspacesWithin_apply (openIn_mixedWorld third) hlist⟩

/-- **A value of the wrong type in one file hides the workspaces of all others**, and so does a text that is nested too deep. -/
theorem listWorkspaces_hidden :
    ((∃ entry, Store.indexStore.HoldsEntry none (headedSite "index").folder (mixedWorld "[]").disk "good.json" entry) ∧
      ∃ fault after, listWorkspaces (headedSite "index") (mixedWorld "[]") = (.error (.access fault), after)) ∧
    ((∃ entry, Store.indexStore.HoldsEntry (some 4) (headedSite "index").folder (mixedWorld "[[[[[").disk "good.json" entry) ∧
      ∃ fault after, listWorkspacesWithin (some 4) (headedSite "index") (mixedWorld "[[[[[") = (.error (.access fault), after)) :=
  ⟨hidden_of_hides (by decide +kernel) (by decide +kernel) (by decide +kernel),
    hidden_of_hides (by decide +kernel) (by decide +kernel) (by decide +kernel)⟩

end DocOutline.Tools
