import FormPage.Proofs.Replay.Leave
import FormPage.Replay.Run

/-!
What a run does to the files. Every step in front of the first write leaves them alone, whether it
succeeds or not (`leavesFiles_prepare`), and the writes are seen only where destinations lead
(`written_writeAll`). The destinations are checked with the files as they were before the run, so
without leave to overwrite none of them leads to a file, and every file that was there keeps its
text. Main statement: `files_after_run`.
-/

namespace FormPage

namespace Files

/-- Every file of `before` is there with the same text, and the folders are the same. -/
structure Spares (before after : Files) : Prop where
  folders : after.folders = before.folders
  texts : ∀ l text, before.texts.get? l = some text → after.texts.get? l = some text

variable {before after fs : Files} {path text : String} {l : Location}

/-- Where a path can be written depends on the folders alone. -/
theorem target?_congr (h : after.folders = before.folders) (path : String) :
    after.target? path = before.target? path := by
  simp only [target?, locate?_congr h, hasFolder, h]

/-- A path that can be written leads to the file at its location. -/
theorem text?_of_target (h : fs.target? path = some l) : fs.text? path = fs.texts.get? l := by
  obtain ⟨hfolder, hlocate⟩ := target?_eq_some h
  simp [Files.text?, hfolder, hlocate]

/-- Where a path leads to nothing there is no file to overwrite. -/
theorem get?_of_not_occupied (h : fs.occupied path = false) (hl : fs.target? path = some l) :
    fs.texts.get? l = none := by
  rw [occupied, Bool.or_eq_false_iff, Option.isSome_eq_false_iff, Option.isNone_iff_eq_none] at h
  rw [← text?_of_target hl, h.1]

/-- The text that a path leads to is kept where every file is. -/
theorem Spares.text? (h : Spares before after) (hpath : before.text? path = some text) :
    after.text? path = some text := by
  rw [Files.text?] at hpath ⊢
  split at hpath
  · cases hpath
  · rename_i hfolder
    obtain ⟨l, hl, hget⟩ := Option.bind_eq_some_iff.mp hpath
    rw [if_neg hfolder, locate?_congr h.folders, hl]
    exact h.texts l text hget

end Files

namespace Replay

/-- A step of a run in a world of values. -/
abbrev Task (α : Type) := ExceptT Failure (StateM World) α

variable {α β : Type} {text path : String} {w w' : World} {ds : List Destination}

/-- A step, and the next one where it succeeds. -/
theorem run_bind (act : Task α) (next : α → Task β) (w : World) :
    (act >>= next).run w =
      match act.run w with
      | (.ok a, w') => (next a).run w'
      | (.error e, w') => (.error e, w') := by
  change (match act.run w with | (a, w') => ExceptT.bindCont next a w') = _
  rcases act.run w with ⟨_ | _, _⟩ <;> rfl

/-- A step that cannot fail. -/
theorem run_lift (act : StateM World α) (w : World) :
    (liftM act : Task α).run w = (.ok (act w).1, (act w).2) := rfl

/-! ### Steps that leave the files alone -/

/-- After a step the files are what they were, however it ends. -/
def LeavesFiles (act : Task α) : Prop := ∀ w, (act.run w).2.files = w.files

theorem leavesFiles_pure (a : α) : LeavesFiles (pure a) := fun _ => rfl

theorem leavesFiles_throw (e : Failure) : LeavesFiles (throw e : Task α) := fun _ => rfl

theorem leavesFiles_check (e : Except Failure α) : LeavesFiles (check e) := fun _ => rfl

theorem leavesFiles_lift {act : StateM World α} (h : ∀ w, (act w).2.files = w.files) :
    LeavesFiles (liftM act) := h

theorem LeavesFiles.bind {act : Task α} {next : α → Task β} (h : LeavesFiles act)
    (hnext : ∀ a, LeavesFiles (next a)) : LeavesFiles (act >>= next) := by
  intro w
  rw [run_bind, ← h w]
  rcases act.run w with ⟨e | a, w'⟩
  · rfl
  · exact hnext a w'

theorem leavesFiles_foldlM {step : β → α → Task β} (h : ∀ b a, LeavesFiles (step b a)) :
    ∀ (l : List α) (b : β), LeavesFiles (l.foldlM step b)
  | [], b => leavesFiles_pure b
  | a :: l, b => by
    rw [List.foldlM_cons]
    exact (h b a).bind fun b' => leavesFiles_foldlM h l b'

theorem leavesFiles_forM {step : α → Task PUnit} (h : ∀ a, LeavesFiles (step a)) :
    ∀ l : List α, LeavesFiles (l.forM step)
  | [] => leavesFiles_pure _
  | a :: l => (h a).bind fun _ => leavesFiles_forM h l

theorem leavesFiles_tell (line : String) :
    LeavesFiles (liftM (Console.tell line : StateM World Unit)) := leavesFiles_lift fun _ => rfl

theorem leavesFiles_ask (reply : Option Bool) (question : String) :
    LeavesFiles (liftM (ask reply question : StateM World Bool)) := by
  refine leavesFiles_lift fun w => ?_
  cases reply <;> rfl

theorem leavesFiles_readPage (spec : String) : LeavesFiles (readPage spec) := by
  rw [readPage]
  split
  · refine (leavesFiles_lift fun _ => rfl).bind fun found => ?_
    cases found with
    | some text => exact leavesFiles_pure _
    | none => exact leavesFiles_throw _
  · refine (leavesFiles_lift fun _ => rfl).bind fun found => ?_
    cases found with
    | text s => exact leavesFiles_pure _
    | unreadable => exact leavesFiles_throw _
    | nothing => exact leavesFiles_pure _

theorem leavesFiles_loadPage (args : Arguments) : LeavesFiles (loadPage args) :=
  (leavesFiles_check _).bind fun _ => (leavesFiles_readPage _).bind fun _ => leavesFiles_check _

theorem leavesFiles_report (sent : List Submission) (line : String) (page : Page) :
    LeavesFiles (do
      sent.forM fun s => liftM (Console.tell (sentLine s) : StateM World Unit)
      liftM (Console.tell line : StateM World Unit)
      return page) :=
  (leavesFiles_forM (fun _ => leavesFiles_tell _) sent).bind fun _ =>
    (leavesFiles_tell line).bind fun _ => leavesFiles_pure page

theorem leavesFiles_replay (reply : Option Bool) (page : Page) (cue : Cue) :
    LeavesFiles (replay reply page cue) := by
  rw [replay]
  split
  · exact leavesFiles_throw _
  · dsimp only
    split
    · exact (leavesFiles_pure _).bind fun _ => leavesFiles_report _ _ _
    · exact (leavesFiles_ask _ _).bind fun _ => leavesFiles_report _ _ _

/-! ### The check of the destinations -/

theorem checkFree_file (path : String) (ds : List Destination) (w : World) :
    (checkFree (.file path :: ds) : Task Unit).run w =
      if w.files.occupied path then (.error (.occupied path), w)
      else (checkFree ds : Task Unit).run w := by
  rw [checkFree, run_bind, run_lift]
  change (if w.files.occupied path then _ else _ : Task Unit).run w = _
  split <;> rfl

theorem leavesFiles_checkFree : ∀ ds : List Destination, LeavesFiles (checkFree ds)
  | [] => leavesFiles_pure ()
  | .output :: ds => leavesFiles_checkFree ds
  | .file path :: ds => fun w => by
    rw [checkFree_file]
    split
    · rfl
    · exact leavesFiles_checkFree ds w

/-- Destinations that pass the check lead to nothing. -/
theorem free_of_checkFree : ∀ (ds : List Destination) {w w' : World},
    (checkFree ds : Task Unit).run w = (.ok (), w') →
      ∀ path, .file path ∈ ds → w.files.occupied path = false
  | [], _, _, _, _, hpath => absurd hpath List.not_mem_nil
  | .output :: ds, _, _, h, path, hpath =>
    free_of_checkFree ds h path ((List.mem_cons.mp hpath).resolve_left nofun)
  | .file first :: ds, _, _, h, path, hpath => by
    rw [checkFree_file] at h
    split at h
    · cases h
    · rename_i hfree
      rcases List.mem_cons.mp hpath with hfirst | hpath
      · cases hfirst
        exact Bool.eq_false_iff.mpr hfree
      · exact free_of_checkFree ds h path hpath

/-! ### Everything in front of the first write -/

theorem leavesFiles_prepare (args : Arguments) : LeavesFiles (prepare args) := by
  refine (leavesFiles_loadPage args).bind fun page => ?_
  refine (leavesFiles_foldlM (leavesFiles_replay args.reply) _ _).bind fun page => ?_
  refine (leavesFiles_check _).bind fun format => ?_
  dsimp only
  split
  · exact (leavesFiles_checkFree _).bind fun _ => leavesFiles_pure _
  · exact leavesFiles_pure _

theorem of_run_bind {act : Task α} {next : α → Task β} {b : β} {w₂ : World}
    (h : (act >>= next).run w = (.ok b, w₂)) :
    ∃ a w₁, act.run w = (.ok a, w₁) ∧ (next a).run w₁ = (.ok b, w₂) := by
  rw [run_bind] at h
  rcases hact : act.run w with ⟨e | a, w₁⟩
  · rw [hact] at h; cases h
  · rw [hact] at h; exact ⟨a, w₁, rfl, h⟩

theorem LeavesFiles.eq {act : Task α} {r : Except Failure α} (h : LeavesFiles act)
    (hrun : act.run w = (r, w')) : w'.files = w.files := by
  have hkept := h w
  rwa [hrun] at hkept

/-- Where the page of a command line goes. -/
def destinations (args : Arguments) : List Destination :=
  if args.outputs.isEmpty then [.output] else args.outputs.map Destination.ofArgument

theorem file_mem_ofArguments {outputs : List String} :
    .file path ∈ outputs.map Destination.ofArgument ↔ path ∈ outputs ∧ path ≠ "-" := by
  rw [List.mem_map]
  constructor
  · rintro ⟨raw, hraw, hfile⟩
    rw [Destination.ofArgument] at hfile
    split at hfile
    · cases hfile
    · rename_i hdash
      cases hfile
      exact ⟨hraw, hdash⟩
  · rintro ⟨hpath, hdash⟩
    exact ⟨path, hpath, if_neg hdash⟩

theorem file_mem_destinations {args : Arguments} :
    .file path ∈ destinations args ↔ path ∈ args.outputs ∧ path ≠ "-" := by
  rw [destinations]
  split
  · rename_i hempty
    rw [List.isEmpty_iff.mp hempty]
    simp
  · exact file_mem_ofArguments

/-- A run that comes to its writes has its destinations checked, unless it may overwrite. -/
theorem of_prepare {args : Arguments} (h : (prepare args : Task _).run w = (.ok (text, ds), w')) :
    w'.files = w.files ∧ ds = destinations args ∧
      (args.force = false → ∀ path, .file path ∈ ds → w.files.occupied path = false) := by
  refine ⟨(leavesFiles_prepare args).eq h, ?_⟩
  obtain ⟨page, w₁, hload, h⟩ := of_run_bind h
  obtain ⟨page, w₂, hevents, h⟩ := of_run_bind h
  obtain ⟨format, w₃, hformat, h⟩ := of_run_bind h
  have hfiles : w₃.files = w.files :=
    ((leavesFiles_check _).eq hformat).trans
      (((leavesFiles_foldlM (leavesFiles_replay args.reply) _ _).eq hevents).trans
        ((leavesFiles_loadPage args).eq hload))
  have hds : (if (args.outputs.map Destination.ofArgument).isEmpty then [.output]
      else args.outputs.map Destination.ofArgument) = destinations args := by
    rw [destinations, List.isEmpty_map]
  dsimp only at h
  rw [hds] at h
  cases hforce : args.force with
  | true =>
    rw [hforce] at h
    cases h
    exact ⟨rfl, nofun⟩
  | false =>
    rw [hforce] at h
    obtain ⟨_, w₄, hcheck, h⟩ := of_run_bind h
    cases h
    refine ⟨rfl, fun _ path hpath => ?_⟩
    -- the check looks at the files as the events left them, which is how they were
    rw [← hfiles]
    exact free_of_checkFree _ hcheck path
      (file_mem_ofArguments.mpr (file_mem_destinations.mp hpath))

/-! ### The writes -/

/-- The files after a text was written to destinations: those that some destination leads to may
hold the text, and all others are what they were. -/
structure Written (text : String) (ds : List Destination) (before after : Files) : Prop where
  folders : after.folders = before.folders
  texts : ∀ l, after.texts.get? l = before.texts.get? l ∨
    after.texts.get? l = some text ∧ ∃ path, .file path ∈ ds ∧ before.target? path = some l

theorem writeAll_file (text path : String) (ds : List Destination) (w : World) :
    (writeAll text (.file path :: ds) : Task Unit).run w =
      match w.files.write? path text with
      | some files => (writeAll text ds : Task Unit).run { w with files }
      | none => (.error (.unwritable path), w) := by
  have hstep : (Console.writeFile path text : StateM World Bool) w =
      match w.files.write? path text with
      | some files => (true, { w with files })
      | none => (false, w) := rfl
  rw [writeAll, run_bind, run_lift, hstep]
  cases w.files.write? path text <;> rfl

namespace Written

variable {ds' : List Destination} {before after last : Files}

theorem refl (text : String) (ds : List Destination) (before : Files) :
    Written text ds before before :=
  ⟨rfl, fun _ => .inl rfl⟩

theorem of_write (h : before.write? path text = some after) :
    Written text [.file path] before after := by
  obtain ⟨l, hl, rfl⟩ := Option.map_eq_some_iff.mp h
  refine ⟨rfl, fun k => ?_⟩
  by_cases hk : k = l
  · subst hk
    exact .inr ⟨by simp [OrderedMap.get?_insert], path, List.mem_singleton_self _, hl⟩
  · exact .inl (by simp [OrderedMap.get?_insert, hk])

theorem trans (h : Written text ds before after) (h' : Written text ds' after last) :
    Written text (ds ++ ds') before last where
  folders := h'.folders.trans h.folders
  texts l := by
    rcases h'.texts l with hsame | ⟨hnew, path, hpath, hl⟩
    · rw [hsame]
      rcases h.texts l with hsame | ⟨hnew, path, hpath, hl⟩
      · exact .inl hsame
      · exact .inr ⟨hnew, path, List.mem_append_left _ hpath, hl⟩
    · rw [Files.target?_congr h.folders] at hl
      exact .inr ⟨hnew, path, List.mem_append_right _ hpath, hl⟩

/-- Where no destination leads to anything, every file keeps its text. -/
theorem spares (h : Written text ds before after)
    (hfree : ∀ path, .file path ∈ ds → before.occupied path = false) : before.Spares after where
  folders := h.folders
  texts l t hl := by
    rcases h.texts l with hsame | ⟨-, path, hpath, htarget⟩
    · rw [hsame, hl]
    · rw [Files.get?_of_not_occupied (hfree path hpath) htarget] at hl
      cases hl

/-- A text that was written is still there when it was written to more destinations. -/
theorem get?_kept (h : Written text ds before after) {l : Location}
    (hl : before.texts.get? l = some text) : after.texts.get? l = some text := by
  rcases h.texts l with hsame | ⟨hnew, -⟩
  · rw [hsame, hl]
  · exact hnew

end Written

/-- Writing, whether it gets to the last destination or not. -/
theorem written_writeAll (text : String) : ∀ (ds : List Destination) (w : World),
    Written text ds w.files ((writeAll text ds : Task Unit).run w).2.files
  | [], w => .refl text [] w.files
  | .output :: ds, w =>
    (Written.refl text [.output] w.files).trans
      (written_writeAll text ds { w with output := w.output ++ text })
  | .file path :: ds, w => by
    rw [writeAll_file]
    cases hwrite : w.files.write? path text with
    | none => exact .refl text _ w.files
    | some files =>
      exact (Written.of_write hwrite).trans (written_writeAll text ds { w with files })

/-- Writing ends early only at a destination that cannot be written, and else all of them hold the
text. -/
theorem writeAll_ends (text : String) : ∀ (ds : List Destination) (w : World),
    (∃ path, ((writeAll text ds : Task Unit).run w).1 = .error (.unwritable path)) ∨
      ((writeAll text ds : Task Unit).run w).1 = .ok () ∧ ∀ path, .file path ∈ ds →
        ((writeAll text ds : Task Unit).run w).2.files.text? path = some text
  | [], w => .inr ⟨rfl, nofun⟩
  | .output :: ds, w =>
    (writeAll_ends text ds { w with output := w.output ++ text }).imp_right fun ⟨hok, hholds⟩ =>
      ⟨hok, fun path hpath => hholds path ((List.mem_cons.mp hpath).resolve_left nofun)⟩
  | .file first :: ds, w => by
    rw [writeAll_file]
    cases hwrite : w.files.write? first text with
    | none => exact .inl ⟨first, rfl⟩
    | some files =>
      have hrest := written_writeAll text ds { w with files }
      refine (writeAll_ends text ds { w with files }).imp_right fun ⟨hok, hholds⟩ =>
        ⟨hok, fun path hpath => ?_⟩
      rcases List.mem_cons.mp hpath with hfirst | hpath
      · cases hfirst
        obtain ⟨l, hl, hfiles⟩ := Option.map_eq_some_iff.mp hwrite
        have hfolders := hrest.folders.trans (Files.folders_write? hwrite)
        rw [Files.text?_of_target ((Files.target?_congr hfolders first).trans hl)]
        -- a later destination may be the same file, but the text is the same too
        refine hrest.get?_kept ?_
        simp [← hfiles, OrderedMap.get?_insert]
      · exact hholds path hpath

/-! ### Runs -/

/-- A run ends in front of the first write, with the files as they were, or it writes to
destinations that it has checked. -/
theorem runIn_cases (w : World) (line : List String) :
    (runIn w line).2.files = w.files ∧
        (∀ args, Arguments.parse line = .ok args → ∃ e, (runIn w line).1 = .error e) ∨
      ∃ args text, Arguments.parse line = .ok args ∧
        (args.force = false →
          ∀ path, .file path ∈ destinations args → w.files.occupied path = false) ∧
        Written text (destinations args) w.files (runIn w line).2.files ∧
        ((∃ path, (runIn w line).1 = .error (.unwritable path)) ∨
          (runIn w line).1 = .ok () ∧ ∀ path, .file path ∈ destinations args →
            (runIn w line).2.files.text? path = some text) := by
  rw [runIn, run]
  split
  · rename_i hparse
    exact .inl ⟨rfl, fun args hargs => by rw [hparse] at hargs; cases hargs⟩
  · rename_i hparse
    exact .inl ⟨rfl, fun args hargs => by rw [hparse] at hargs; cases hargs⟩
  · rename_i args hparse
    rw [run_bind]
    rcases hprepare : (prepare args : Task _).run w with ⟨e | ⟨text, ds⟩, w'⟩
    · exact .inl ⟨(leavesFiles_prepare args).eq hprepare, fun _ _ => ⟨e, rfl⟩⟩
    · obtain ⟨hfiles, rfl, hfree⟩ := of_prepare hprepare
      refine .inr ⟨args, text, hparse, hfree, ?_, writeAll_ends text _ w'⟩
      rw [← hfiles]
      exact written_writeAll text _ w'

/-- Where no argument of a command line gives leave to overwrite, every file that was there before
the run has the same text after it, by its location and by every path that leads to it. A run that
fails for any other reason than that a destination cannot be written leaves all files as they were,
and a run that succeeds has written one text to every destination. -/
theorem files_after_run (w : World) (line : List String) :
    ((∀ argument ∈ line, ¬ GivesLeave argument.toList) →
      w.files.Spares (runIn w line).2.files ∧
        ∀ path text, w.files.text? path = some text →
          (runIn w line).2.files.text? path = some text) ∧
    (∀ e, (runIn w line).1 = .error e → (∀ path, e ≠ .unwritable path) →
      (runIn w line).2.files = w.files) ∧
    ∀ args, Arguments.parse line = .ok args → (runIn w line).1 = .ok () →
      ∃ text, ∀ path ∈ args.outputs, path ≠ "-" →
        (runIn w line).2.files.text? path = some text := by
  rcases runIn_cases w line with ⟨hfiles, hfails⟩ | ⟨args, text, hparse, hfree, hwritten, hend⟩
  · refine ⟨fun _ => ?_, fun _ _ _ => hfiles, fun args hargs hok => ?_⟩
    · rw [hfiles]
      exact ⟨⟨rfl, fun _ _ h => h⟩, fun _ _ h => h⟩
    · obtain ⟨e, he⟩ := hfails args hargs
      rw [hok] at he
      cases he
  · refine ⟨fun hleave => ?_, fun e he hother => ?_, fun args' hargs hok => ⟨text, ?_⟩⟩
    · have hforce : args.force = false := Bool.eq_false_iff.mpr fun hforce =>
        have ⟨argument, hmem, hgives⟩ := (force_iff hparse).mp hforce
        hleave argument hmem hgives
      have hspares := hwritten.spares (hfree hforce)
      exact ⟨hspares, fun _ _ h => hspares.text? h⟩
    · rcases hend with ⟨path, hpath⟩ | ⟨hok, -⟩
      · rw [he] at hpath
        cases hpath
        exact absurd rfl (hother path)
      · rw [he] at hok
        cases hok
    · rw [hparse] at hargs
      cases hargs
      rcases hend with ⟨path, hpath⟩ | ⟨-, hholds⟩
      · rw [hok] at hpath
        cases hpath
      · exact fun path hpath hdash => hholds path (file_mem_destinations.mpr ⟨hpath, hdash⟩)

/-- Whether a run ended at a destination that it must not overwrite. -/
def endsOccupied : Except Failure Unit → Bool
  | .error (.occupied _) => true
  | _ => false

theorem exists_of_endsOccupied : ∀ {r : Except Failure Unit}, endsOccupied r = true →
    ∃ path, r = .error (.occupied path)
  | .error (.occupied path), _ => ⟨path, rfl⟩

/-- A world with one file. -/
def oldWorld : World where
  files := ({} : Files).add "old.html" "kept"

/-- A command line that writes a page to a new file, twice, and to the output. -/
def newLine : List String :=
  ["-p", "\x7b\"body\": [\x7b\"tag\": \"DIV\"\x7d]\x7d", "--markup", "-o", "new.html", "-",
    "./new.html"]

/-- The old file is kept beside the new one, and a line that also names it writes nothing. -/
theorem files_oldWorld :
    (∀ argument ∈ newLine, ¬ GivesLeave argument.toList) ∧
    (runIn oldWorld newLine).2.files.text? "old.html" = some "kept" ∧
    (runIn oldWorld newLine).2.files.text? "new.html" =
      some "<html><body><div></div></body></html>\n" ∧
    (runIn oldWorld (newLine ++ ["old.html"])).2.files = oldWorld.files := by
  have hparse : (Arguments.parse newLine).toOption.map (·.force) = some false := by decide +kernel
  have hleave : ∀ argument ∈ newLine, ¬ GivesLeave argument.toList := by
    intro argument hmem hgives
    cases hargs : Arguments.parse newLine with
    | error halt =>
      rw [hargs] at hparse
      cases hparse
    | ok args =>
      rw [hargs] at hparse
      have hfree : args.force = false := Option.some.inj hparse
      rw [(force_iff hargs).mpr ⟨argument, hmem, hgives⟩] at hfree
      cases hfree
  have hold : oldWorld.files.text? "old.html" = some "kept" := by decide +kernel
  have hnew : (runIn oldWorld newLine).2.files.text? "new.html" =
      some "<html><body><div></div></body></html>\n" := by decide +kernel
  have hends : endsOccupied (runIn oldWorld (newLine ++ ["old.html"])).1 = true := by
    decide +kernel
  obtain ⟨path, hpath⟩ := exists_of_endsOccupied hends
  obtain ⟨hspares, -⟩ := files_after_run oldWorld newLine
  obtain ⟨-, hfails, -⟩ := files_after_run oldWorld (newLine ++ ["old.html"])
  exact ⟨hleave, (hspares hleave).2 _ _ hold, hnew, hfails _ hpath nofun⟩

end Replay

end FormPage
