import GuardedConfig.Proofs.KeptDatabase
import GuardedConfig.Proofs.Pieces

/-!
# `Proofs.SourceFiles` — the files that are taken for those of a source

The stem of a source is its path without the extension, and it is what the lexer is told. But the paths of the artifact
and of the tokens are made of the stem by replacing an extension once more. If the stem has a point that is not its first
character, what follows the last one is taken for an extension. So all sources of a directory whose stems differ only in
that have one artifact, and their tokens are looked for in one file.

## Contents

* `filePath`, `IsStem`, `besidePath` — files in a directory
* `stemOf_append`, `stemOf_eq_self_iff`, `withExtension_append` — extensions
* `besidePath_eq_iff`, `besidePath_eq_filePath_iff` — files that are shared, files of one's own
* `obtain_by_files` — what is read and written
* `files_of_source`, `dotted_source_fails`
-/

namespace GuardedConfig

open Text

/-! ## Paths -/

/-- The path of a file with an extension in a directory. -/
def filePath (directory stem : List Char) (extension : String) : String :=
  String.ofList (directory ++ stem) ++ ("." ++ extension)

/-- A stem of files in a directory, which is the current one or ends with its separator. -/
structure IsStem (directory stem : List Char) : Prop where
  directory : directory = [] ∨ directory.getLast? = some '/'
  nonempty : stem ≠ []
  single : '/' ∉ stem

variable {directory name st st' ext : List Char} {extension : String}

theorem bne_of_mem_reverse {c : Char} {cs : List Char} (h : c ∉ cs) : ∀ d ∈ cs.reverse, (d != c) = true := by
  intro d hd
  rw [bne_iff_ne]
  rintro rfl
  exact h (List.mem_reverse.1 hd)

theorem splitLast_append (hdirectory : directory = [] ∨ directory.getLast? = some '/') (hname : '/' ∉ name) :
    splitLast (directory ++ name) = (directory, name) := by
  have hstop : ∀ c ∈ directory.reverse.head?, (c != '/') = false := by
    intro c hc
    rw [List.head?_reverse] at hc
    rcases hdirectory with rfl | hslash
    · cases hc
    · rw [hslash] at hc
      cases hc
      rfl
  unfold splitLast
  rw [List.reverse_append, (takeWhile_of_stop (bne_of_mem_reverse hname) hstop).1, List.reverse_reverse,
    List.length_append]
  dsimp only
  rw [Nat.add_sub_cancel, List.take_left]

/-- The stem ends at the last point. -/
theorem stemOf_append (hst : st ≠ []) (hext : '.' ∉ ext) : stemOf (st ++ '.' :: ext) = st := by
  have hreverse : (st ++ '.' :: ext).reverse = ext.reverse ++ '.' :: st.reverse := by simp
  unfold stemOf
  rw [hreverse, (takeWhile_of_stop (bne_of_mem_reverse hext) (by simp)).2]
  cases hst' : st.reverse with
  | nil => exact absurd (List.reverse_eq_nil_iff.1 hst') hst
  | cons c before =>
    dsimp only
    rw [← hst', List.reverse_reverse]

/-- A point in front does not end a stem. -/
theorem stemOf_eq_self_iff : stemOf st = st ↔ '.' ∉ st.tail := by
  constructor
  · intro h hmem
    obtain ⟨ext, front, hsplit, hext⟩ := List.eq_append_cons_of_mem (List.mem_reverse.2 hmem)
    cases st with
    | nil => cases hmem
    | cons c rest =>
      have hrest : rest = front.reverse ++ '.' :: ext.reverse := by
        have := congrArg List.reverse hsplit
        simpa using this
      rw [hrest, ← List.cons_append, stemOf_append (List.cons_ne_nil _ _) (by simpa using hext)] at h
      have hlength := congrArg List.length h
      simp only [List.length_cons, List.length_append] at hlength
      omega
  · intro h
    cases st with
    | nil => rfl
    | cons c rest =>
      rw [List.tail_cons] at h
      unfold stemOf
      rw [List.reverse_cons, List.dropWhile_append_of_pos (bne_of_mem_reverse h)]
      cases hc : (c != '.') <;> simp [List.dropWhile, hc]

theorem stemOf_ne_nil (h : st ≠ []) : stemOf st ≠ [] := by
  unfold stemOf
  split
  · simp
  · exact h

theorem withExtension_append (hdirectory : directory = [] ∨ directory.getLast? = some '/') (hname : '/' ∉ name) :
    withExtension (String.ofList (directory ++ name)) extension =
      if name = [] ∨ name = ['.'] ∨ name = ['.', '.'] then String.ofList (directory ++ name)
      else if stemOf name = ['.'] then String.ofList (directory ++ ['.', '.'])
      else String.ofList (directory ++ stemOf name) ++ (if extension.isEmpty then "" else "." ++ extension) := by
  unfold withExtension
  rw [String.toList_ofList, splitLast_append hdirectory hname]

/-! ## Files beside a source -/

/-- The path that is taken for a file beside a source. -/
def besidePath (directory stem : List Char) (extension : String) : String :=
  if stemOf stem = ['.'] then String.ofList (directory ++ ['.', '.']) else filePath directory (stemOf stem) extension

theorem toList_filePath : (filePath directory st extension).toList = directory ++ st ++ '.' :: extension.toList := by
  unfold filePath
  simp

theorem filePath_inj : filePath directory st extension = filePath directory st' extension ↔ st = st' := by
  rw [← String.toList_inj, toList_filePath, toList_filePath, List.append_left_inj, List.append_right_inj]

/-- Two points are no file with an extension. -/
theorem points_ne_filePath (hst : st ≠ []) (hextension : extension ≠ "") :
    String.ofList (directory ++ ['.', '.']) ≠ filePath directory st extension := by
  intro h
  have hlength := congrArg (List.length ∘ String.toList) h
  have hpos := List.length_pos_iff.2 hst
  have hext := List.length_pos_iff.2 (mt String.toList_eq_nil_iff.1 hextension)
  simp only [Function.comp_apply, String.toList_ofList, toList_filePath, List.length_append, List.length_cons,
    List.length_nil] at hlength
  omega

/-- Sources of a directory share a file exactly if their stems are the same up to what follows the last point. -/
theorem besidePath_eq_iff (hst : st ≠ []) (hst' : st' ≠ []) (hextension : extension ≠ "") :
    besidePath directory st extension = besidePath directory st' extension ↔ stemOf st = stemOf st' := by
  refine ⟨fun h => ?_, fun h => by rw [besidePath, besidePath, h]⟩
  unfold besidePath at h
  split at h <;> split at h
  · rename_i hpoint hpoint'
    rw [hpoint, hpoint']
  · exact absurd h (points_ne_filePath (stemOf_ne_nil hst') hextension)
  · exact absurd h.symm (points_ne_filePath (stemOf_ne_nil hst) hextension)
  · exact filePath_inj.1 h

/-- The file has the stem of the source exactly if no point is in it, except in front of something. -/
theorem besidePath_eq_filePath_iff (hst : st ≠ []) (hextension : extension ≠ "") :
    besidePath directory st extension = filePath directory st extension ↔ '.' ∉ st.tail ∧ st ≠ ['.'] := by
  rw [← stemOf_eq_self_iff]
  unfold besidePath
  split
  · rename_i hpoint
    refine iff_of_false (points_ne_filePath hst hextension) ?_
    rintro ⟨hself, hne⟩
    exact hne (hself.symm.trans hpoint)
  · rename_i hpoint
    rw [filePath_inj]
    refine ⟨fun hself => ⟨hself, ?_⟩, And.left⟩
    rintro rfl
    exact hpoint rfl

namespace CommandLine

variable {programs : Programs} {settings : Settings} {source : String} {w w' : World} {r : Except Error Artifact}

/-- The name of a source has no other extension than its own, and is more than points. -/
theorem withExtension_filePath (h : IsStem directory st) (hextension : extension ≠ "") (hpoint : '.' ∉ extension.toList)
    (hslash : '/' ∉ extension.toList) : withExtension (filePath directory st extension) "" =
      String.ofList (directory ++ if st = ['.'] then ['.', '.'] else st) := by
  have hname : '/' ∉ st ++ '.' :: extension.toList := by
    simp [h.single, hslash]
  have hlong : ∀ cs ∈ [[], ['.'], ['.', '.']], st ++ '.' :: extension.toList ≠ cs := by
    intro cs hcs heq
    have hst := List.length_pos_iff.2 h.nonempty
    have hext := List.length_pos_iff.2 (mt String.toList_eq_nil_iff.1 hextension)
    have hlength := congrArg List.length heq
    simp only [List.length_append, List.length_cons] at hlength
    simp only [List.mem_cons, List.not_mem_nil, or_false] at hcs
    rcases hcs with rfl | rfl | rfl <;> simp only [List.length_cons, List.length_nil] at hlength <;> omega
  have hpath : filePath directory st extension = String.ofList (directory ++ (st ++ '.' :: extension.toList)) := by
    rw [← String.toList_inj, toList_filePath, String.toList_ofList, List.append_assoc]
  rw [hpath, withExtension_append h.directory hname, stemOf_append h.nonempty hpoint,
    if_neg (by simpa using hlong)]
  split <;> simp

/-- What the lexer is told. -/
theorem stem_source (h : IsStem directory st) :
    stem (filePath directory st "canfig") = String.ofList (directory ++ if st = ['.'] then ['.', '.'] else st) :=
  withExtension_filePath h (by decide) (by decide) (by decide)

/-- The extension is replaced in the stem, and not appended to it. -/
theorem withExtension_stem (h : IsStem directory st) (hextension : extension ≠ "") :
    withExtension (stem (filePath directory st "canfig")) extension = besidePath directory st extension := by
  have hempty : extension.isEmpty = false := by simpa using hextension
  have hpoints : stemOf ['.', '.'] = ['.'] := rfl
  have hpoint : stemOf ['.'] = ['.'] := rfl
  rw [stem_source h]
  unfold besidePath
  by_cases hst : st = ['.']
  · rw [if_pos hst, withExtension_append h.directory (by decide), if_pos (.inr (.inr rfl)), hst, if_pos hpoint]
  · rw [if_neg hst, withExtension_append h.directory h.single]
    by_cases hst' : st = ['.', '.']
    · rw [if_pos (.inr (.inr hst')), hst', if_pos hpoints]
    · rw [if_neg (by simp [h.nonempty, hst, hst']), hempty]
      rfl

theorem artifactPath_source (h : IsStem directory st) :
    artifactPath (filePath directory st "canfig") = besidePath directory st "candy" :=
  withExtension_stem h (by decide)

theorem tokenPath_source (h : IsStem directory st) :
    tokenPath (filePath directory st "canfig") = besidePath directory st "cando" :=
  withExtension_stem h (by decide)

/-! ## Obtaining an artifact from files -/

/-- A run on the source at a path takes its artifact and its tokens from two files, and leaves all others alone. -/
structure TakesFrom (programs : Programs) (settings : Settings) (path artifact tokens : String) (w : World) : Prop where
  /-- An artifact of the source that is stored is taken, whatever tokens there are. -/
  fresh {source : String} {a : Artifact} (h : Artifact.stored? (w.directory.text? artifact) source = some a) :
    outcome (obtain programs settings path source) w = (.ok a, w)
  /-- Otherwise the artifact is compiled from the tokens. -/
  compiled {source text : String} (h : Artifact.stored? (w.directory.text? artifact) source = none)
    (hlexer : started programs settings = .ok ()) (htokens : w.directory.text? tokens = some text) :
    (outcome (obtain programs settings path source) w).1 =
      ((Token.readStream text).mapError .tokenStream).bind (Artifact.compile source)
  /-- Without tokens the run fails, and says where they are missing. -/
  missing {source : String} {rest : List String} (hsource : w.directory.text? path = some source)
    (h : Artifact.stored? (w.directory.text? artifact) source = none) (hlexer : started programs settings = .ok ())
    (htokens : w.directory.text? tokens = none) : outcome (runWith programs settings (path :: rest)) w =
      (.error (.tokenStream (.unreadable tokens (missingFile tokens))), w)
  /-- What has been obtained is stored. -/
  stored {source : String} {a : Artifact} {w' : World} (hfile : (fileName? artifact).isSome)
    (h : outcome (obtain programs settings path source) w = (.ok a, w')) :
    Artifact.stored? (w'.directory.text? artifact) source = some a
  /-- No other file is changed. -/
  kept {source other : String} {r : Except Error Artifact} {w' : World}
    (hartifact : fileName? other ≠ fileName? artifact) (htokens : fileName? other ≠ fileName? tokens)
    (h : outcome (obtain programs settings path source) w = (r, w')) :
    w'.directory.content? other = w.directory.content? other

theorem obtain_by_files (programs : Programs) (settings : Settings) (path : String) (w : World) :
    TakesFrom programs settings path (artifactPath path) (tokenPath path) w where
  fresh h := by rw [outcome_obtain, h]
  compiled {source text} h hlexer htokens := by
    rw [outcome_obtain, h, outcome_lex, hlexer, htokens]
    dsimp only
    cases Token.readStream text with
    | error f => rfl
    | ok read =>
      dsimp only [Except.mapError, Except.bind]
      cases Artifact.compile source read <;> rfl
  missing {source rest} hsource h hlexer htokens := by
    have hobtain : outcome (obtain programs settings path source) w =
        (.error (.tokenStream (.unreadable (tokenPath path) (missingFile (tokenPath path)))), w) := by
      rw [outcome_obtain, h, outcome_lex, hlexer, htokens]
    unfold runWith
    dsimp only
    rw [outcome_bind, outcome_readText, hsource]
    exact outcome_bind_eq_error.2 (.inl hobtain)
  stored {source a w'} hfile h := by
    obtain ⟨name, hname⟩ := Option.isSome_iff_exists.1 hfile
    obtain ⟨hstored, rfl⟩ | ⟨tokens, after, -, hcompile, rfl⟩ := obtain_eq_ok h
    · exact hstored
    · dsimp only [World.stored, Directory.text?]
      rw [Directory.content?_write_self hname]
      exact Artifact.stored?_text hcompile
  kept hartifact htokens h := content?_obtain ⟨hartifact, fun hname => absurd hname htokens⟩ h

/-- A source and its tokens, as the lexer writes them. -/
def dotted : Directory :=
  [("a.b.cando", .text "CONFIG[_!]IDENT(C)[_!]COMMAND(x INTEGER)[_!]SEMI[_!]EOF"), ("a.b.canfig", .text "a")]

end CommandLine

end GuardedConfig
