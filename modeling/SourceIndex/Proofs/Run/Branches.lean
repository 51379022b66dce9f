import SourceIndex.Proofs.Run.OneCommit
import SourceIndex.Proofs.Run.Validation
import SourceIndex.Proofs.Url.Endings

/-!
# Branches

The name of a branch stands at the end of the URL of its commit as it is given.
Reading this URL may change the name: what follows a number sign is left out,
escapes stay escapes, a backslash becomes a slash and segments of dots are
resolved.  So there are branches that a run does not tell apart from others.
Names that are kept as the ending of a URL are told apart, in every repository
whose URL has no number sign: their commits are asked for under URLs that are
written differently, and the commit of a result was given in reply to the
request for its own branch.

## Main results

* `GitHub.commitUrl_apart` — the URLs of the commits of different branches.
* `run_resolved` — where the commit of a result comes from.
* `run_branches_apart` — different branches, in plans and their runs.
-/

namespace SourceIndex

open Http Http.Online

/-! ## URLs of commits -/

namespace Url

theorem isWebScheme_of_isWeb {url : Url} (h : url.isWeb = true) : IsWebScheme url.scheme := by
  rw [isWeb, Bool.and_eq_true, Bool.and_eq_true, List.contains_iff_mem] at h
  rcases List.mem_cons.mp h.1.1 with hHttp | hHttps
  · exact .inl hHttp
  · exact .inr (List.mem_singleton.mp hHttps)

/-- A kept ending without a blank at its end stays whole. -/
theorem Kept.isOuter_getLast? {ending : List Char} (h : Kept ending)
    (hBlank : ∀ last ∈ ending.getLast?, Text.isBlank last = false) :
    ∀ last ∈ ending.getLast?, isOuter last = false := by
  intro last hLast
  have hVisible := h.visible last (List.mem_of_getLast? hLast)
  have hNotBlank := hBlank last hLast
  have hNotSpace : last.toNat ≠ 0x20 := by
    intro hSpace
    rw [Text.isBlank, hSpace] at hNotBlank
    cases hNotBlank
  rw [isOuter, decide_eq_false_iff_not]
  omega

end Url

namespace GitHub

/-- What stands between the service and the branch in the URL of a commit. -/
def commitStem (repository : RepositoryRef) : List Char :=
  "repos/".toList ++ repository.owner.toList ++ '/' :: repository.repo.toList ++
    "/commits".toList

theorem commitUrl_eq (service : GitHub) (repository : RepositoryRef) :
    service.commitUrl repository =
      String.ofList (service.base.toList ++ '/' ::
        (commitStem repository ++ '/' :: repository.branch.toList)) := by
  have hRepos : "/repos/".toList = '/' :: "repos/".toList := by decide
  have hSlash : "/".toList = ['/'] := by decide
  have hCommits : "/commits/".toList = "/commits".toList ++ ['/'] := by decide
  apply String.toList_inj.mp
  rw [String.toList_ofList]
  unfold commitUrl repositoryUrl commitStem
  simp only [String.toList_append]
  rw [hRepos, hCommits, hSlash]
  simp only [List.append_assoc, List.cons_append, List.nil_append]

/-- A number sign in the URL of a commit is one of the URL of its repository, or
of the branch. -/
theorem not_mem_of_repositoryUrl {service : GitHub} {repository : RepositoryRef}
    (h : '#' ∉ (service.repositoryUrl repository).toList) :
    '#' ∉ service.base.toList ∧ '#' ∉ commitStem repository := by
  unfold repositoryUrl at h
  simp only [String.toList_append, List.mem_append, not_or] at h
  obtain ⟨⟨⟨⟨hBase, _⟩, hOwner⟩, _⟩, hRepo⟩ := h
  refine ⟨hBase, ?_⟩
  unfold commitStem
  simp only [List.mem_append, List.mem_cons, not_or]
  exact ⟨⟨⟨by decide, hOwner⟩, by decide, hRepo⟩, by decide⟩

/-- The stem of the URL of a commit has characters that are no slashes. -/
theorem exists_mem_commitStem (repository : RepositoryRef) :
    ∃ c ∈ Url.unbroken (commitStem repository), Url.isSlash c = false := by
  refine ⟨'r', List.mem_filter.mpr ⟨?_, by decide⟩, by decide⟩
  unfold commitStem
  simp only [List.mem_append]
  exact .inl (.inl (.inl (by decide)))

section Commit

variable {service other : GitHub} {repository rival : RepositoryRef} {url rivalUrl : Url}
  {asked rivalAsked : Request}

/-- The URL under which a commit is asked for, when the branch is kept. -/
theorem endsIn_of_prepare (hKept : Url.Kept repository.branch.toList)
    (hBlank : ∀ last ∈ repository.branch.toList.getLast?, Text.isBlank last = false)
    (h : (service.draft .json (service.commitUrl repository)).prepare = .ok (url, asked)) :
    ∃ whole, Url.EndsIn service.base.toList (commitStem repository) repository.branch.toList whole ∧
      asked.url = whole.withoutUser.withoutFragment := by
  obtain ⟨whole, hRead, hWeb, hAsked⟩ := url_of_prepare h
  obtain ⟨user, hUser⟩ := Url.exists_withoutUser_eq whole
  have hScheme := Url.isWebScheme_of_isWeb hWeb
  rw [hUser] at hScheme
  refine ⟨whole, ⟨hKept, hKept.isOuter_getLast? hBlank, ?_, hScheme⟩, hAsked⟩
  rw [← commitUrl_eq]
  exact hRead

/-- **The commits of different branches are asked for under different URLs**,
when both names are kept. -/
theorem commitUrl_apart (hBase : service.base = other.base)
    (hOwner : repository.owner = rival.owner) (hRepo : repository.repo = rival.repo)
    (hBranch : repository.branch ≠ rival.branch)
    (hRepository : '#' ∉ (service.repositoryUrl repository).toList)
    (hKept : Url.Kept repository.branch.toList) (hRivalKept : Url.Kept rival.branch.toList)
    (hBlank : ∀ last ∈ repository.branch.toList.getLast?, Text.isBlank last = false)
    (hRivalBlank : ∀ last ∈ rival.branch.toList.getLast?, Text.isBlank last = false)
    (h : (service.draft .json (service.commitUrl repository)).prepare = .ok (url, asked))
    (hRival : (other.draft .json (other.commitUrl rival)).prepare = .ok (rivalUrl, rivalAsked)) :
    asked.url.text ≠ rivalAsked.url.text := by
  have hStem : commitStem rival = commitStem repository := by
    unfold commitStem
    rw [hOwner, hRepo]
  obtain ⟨hNoSign, hNoSignStem⟩ := not_mem_of_repositoryUrl hRepository
  obtain ⟨start, inQuery, hStart⟩ :=
    Url.written_ending hNoSign hNoSignStem (exists_mem_commitStem repository)
  obtain ⟨whole, hEnds, hAsked⟩ := endsIn_of_prepare hKept hBlank h
  obtain ⟨rivalWhole, hRivalEnds, hRivalAsked⟩ := endsIn_of_prepare hRivalKept hRivalBlank hRival
  rw [← hBase, hStem] at hRivalEnds
  intro hSame
  have hWritten : asked.url.written = rivalAsked.url.written := String.ofList_inj.mp hSame
  rw [hAsked, hRivalAsked, hStart _ _ hEnds, hStart _ _ hRivalEnds] at hWritten
  obtain ⟨_, hEnding⟩ := List.cons.inj (List.append_cancel_left hWritten)
  exact hBranch (String.toList_inj.mp (Url.writeEnding_inj hKept hRivalKept hEnding))

end Commit

end GitHub

/-! ## Branches of runs -/

namespace Run

/-- A plan that was found valid asks for the commit of its branch. -/
structure AsksFor (bench : Workbench) (plan : RunPlan) (service : GitHub) (asked : Request) :
    Prop where
  valid : ∃ request environment, RunPlan.ofRequest request environment = .ok plan
  connects : connected bench plan = .ok service
  prepares : ∃ url,
    (service.draft .json (service.commitUrl plan.repository)).prepare = .ok (url, asked)

section Resolved

variable {bench : Workbench} {plan rival : RunPlan} {service other : GitHub}
  {asked rivalAsked : Request}

/-- The name of the branch is trimmed. -/
theorem AsksFor.isBlank_getLast? (h : AsksFor bench plan service asked) :
    ∀ last ∈ plan.repository.branch.toList.getLast?, Text.isBlank last = false := by
  obtain ⟨request, environment, hPlan⟩ := h.valid
  rw [RunPlan.repository_of_ofRequest hPlan]
  exact Text.getLast?_trimmed request.branch

/-- The service is that of the settings. -/
theorem AsksFor.base (h : AsksFor bench plan service asked) :
    service.base = GitHub.withoutSlashes bench.settings.github.apiUrl := by
  have hConnects := h.connects
  unfold connected GitHub.connect at hConnects
  split at hConnects
  · cases hConnects
  · cases hConnects
    rfl

/--
**The commit of a result was given in reply to the request for the branch** that
the result names.
-/
theorem run_resolved (h : AsksFor bench plan service asked) (world : World) (state : RunState)
    {result : RunResult} (hOk : (plan.run bench world state).1 = .ok result) :
    result.metadata.branch = plan.repository.branch ∧
      ∃ events entry commit,
        (plan.run bench world state).2.session = state.session.after world events ∧
        entry ∈ entries events ∧ Grants asked entry commit ∧
        result.metadata.commitSha = commit.sha := by
  obtain ⟨url, hRequest⟩ := h.prepares
  obtain ⟨hResult, hSession⟩ := run_shows plan bench world state
  rw [hOk] at hResult
  have hRunning : state.session.cancelled = false := by
    cases hCancelled : state.session.cancelled with
    | false => rfl
    | true =>
        unfold planned at hResult
        rw [run_checkCancelled, hCancelled, if_pos rfl] at hResult
        cases hResult
  obtain ⟨first, ⟨error, _, hRun⟩ |
    ⟨found, later, hResolving, _, hRun, hLater, hProceeding⟩⟩ :=
      planned_cases h.connects state.standIn world hRunning
  · rw [hRun] at hResult
    cases hResult
  · obtain ⟨entry, hEntry, hGrants⟩ := grants_of_resolving hRequest hResolving
    rw [← hResult] at hProceeding
    obtain ⟨listing, _, _, _, _, fetched, embedded, _, _, _, _, rfl⟩ := hProceeding.finished
    refine ⟨rfl, first ++ later, entry, found, ?_, ?_, hGrants, rfl⟩
    · rw [hSession, hRun, hLater.after, Session.after_append]
    · rw [entries_append]
      exact List.mem_append_left _ hEntry

end Resolved

/--
**Different branches are different requests.**  The commits of two branches of a
repository whose names are kept are asked for under URLs that are written
differently; so a run gives the commit of its own branch, in reply to a request
that is not the one for the other branch.
-/
theorem run_branches_apart (bench : Workbench) {plan rival : RunPlan} {service other : GitHub}
    {asked rivalAsked : Request} (hPlan : AsksFor bench plan service asked)
    (hRival : AsksFor bench rival other rivalAsked)
    (hOwner : plan.repository.owner = rival.repository.owner)
    (hRepo : plan.repository.repo = rival.repository.repo)
    (hBranch : plan.repository.branch ≠ rival.repository.branch)
    (hRepository : '#' ∉ (service.repositoryUrl plan.repository).toList)
    (hKept : Url.Kept plan.repository.branch.toList)
    (hRivalKept : Url.Kept rival.repository.branch.toList) :
    asked.url.text ≠ rivalAsked.url.text ∧
      ∀ world state result, (plan.run bench world state).1 = .ok result →
        result.metadata.branch = plan.repository.branch ∧
          ∃ events entry commit,
            (plan.run bench world state).2.session = state.session.after world events ∧
            entry ∈ entries events ∧ Grants asked entry commit ∧
            entry.request.url.text ≠ rivalAsked.url.text ∧
            result.metadata.commitSha = commit.sha := by
  obtain ⟨_, hRequest⟩ := hPlan.prepares
  obtain ⟨_, hRivalRequest⟩ := hRival.prepares
  have hApart := GitHub.commitUrl_apart (hPlan.base.trans hRival.base.symm) hOwner hRepo hBranch
    hRepository hKept hRivalKept hPlan.isBlank_getLast? hRival.isBlank_getLast? hRequest
    hRivalRequest
  refine ⟨hApart, fun world state result hOk => ?_⟩
  obtain ⟨hName, events, entry, commit, hSession, hEntry, hGrants, hSha⟩ :=
    run_resolved hPlan world state hOk
  refine ⟨hName, events, entry, commit, hSession, hEntry, hGrants, ?_, hSha⟩
  rw [hGrants.asked]
  exact hApart

/-! ### Branches that are told apart, and some that are not -/

namespace Branching

open Moving (bench service commitRequest eq_ok_of_toOption)

def request (branch : String) : IndexRequest :=
  { owner := "o", repo := "r", branch
    credentials := { githubToken := some ⟨"t"⟩, openaiApiKey := none }
    githubToken := none, openaiApiKey := none, embeddingProvider := "local"
    outputFormat := "metadata", maxFiles := 0, fileExtensions := ["txt"], excludePatterns := []
    includeDocstrings := false, chunkStrategy := "file" }

def plan (branch : String) : RunPlan :=
  { Moving.plan with
    repository := { owner := "o", repo := "r", branch }, provider := .localModel
    format := .metadata }

/-- The branch main has a commit without files. -/
def world : World :=
  { answer := fun _ request =>
      if request.url = Moving.commitUrl then .reply Moving.granted (Moving.commitBody "c")
      else .reply Moving.granted (Utf8.bytes "\x7b\"tree\":[]\x7d")
    interrupts := World.patient }

theorem asksFor {branch : String} {asked : Request}
    (hPlan : (RunPlan.ofRequest (request branch) fun _ => none).toOption = some (plan branch))
    (hAsked :
      (service.draft .json (service.commitUrl (plan branch).repository)).prepare.toOption.map
        Prod.snd = some asked) :
    AsksFor bench (plan branch) service asked := by
  obtain ⟨⟨url, _⟩, hPrepare, rfl⟩ := Option.map_eq_some_iff.mp hAsked
  exact ⟨⟨request branch, fun _ => none, eq_ok_of_toOption hPlan⟩, Moving.connected_service, url,
    eq_ok_of_toOption hPrepare⟩

/-- A branch with a slash in its name. -/
def devRequest : Request := Moving.asked ["commits", "dev", "1"] none "application/vnd.github+json"

theorem asksFor_main : AsksFor bench (plan "main") service commitRequest :=
  asksFor (by decide +kernel) (by decide +kernel)

theorem asksFor_dev : AsksFor bench (plan "dev/1") service devRequest :=
  asksFor (by decide +kernel) (by decide +kernel)

/-- Names of branches that are not kept, and become main. -/
def lookalikes : List String := ["main#2", "x/%2e%2e/main"]

theorem asksFor_lookalikes :
    ∀ branch ∈ lookalikes, AsksFor bench (plan branch) service commitRequest := by
  have hPlans : ∀ branch ∈ lookalikes,
      (RunPlan.ofRequest (request branch) fun _ => none).toOption = some (plan branch) := by
    decide +kernel
  have hAsked : ∀ branch ∈ lookalikes,
      (service.draft .json (service.commitUrl (plan branch).repository)).prepare.toOption.map
        Prod.snd = some commitRequest := by
    decide +kernel
  exact fun branch hBranch => asksFor (hPlans branch hBranch) (hAsked branch hBranch)

/-- A run for any of them gives the commit of main. -/
theorem run_ok : ∀ branch ∈ "main" :: lookalikes,
    ∃ result, ((plan branch).run bench world ⟨.start false, none⟩).1 = .ok result ∧
      result.metadata.branch = branch ∧ result.metadata.commitSha = "c" := by
  have hShown : ∀ branch ∈ "main" :: lookalikes,
      ((plan branch).run bench world ⟨.start false, none⟩).1.toOption.map
        (fun result => (result.metadata.branch, result.metadata.commitSha)) =
          some (branch, "c") := by
    decide +kernel
  intro branch hBranch
  obtain ⟨result, hResult, hSame⟩ := Option.map_eq_some_iff.mp (hShown branch hBranch)
  obtain ⟨hName, hCommit⟩ := Prod.mk.inj hSame
  exact ⟨result, eq_ok_of_toOption hResult, hName, hCommit⟩

end Branching

open Branching in
open Moving (bench service commitRequest) in
theorem run_branches_apart_dev :
    (AsksFor bench (plan "main") service commitRequest ∧
        AsksFor bench (plan "dev/1") service devRequest ∧
        Url.Kept "main".toList ∧ Url.Kept "dev/1".toList) ∧
      commitRequest.url.text ≠ devRequest.url.text ∧
      ∃ result, ((plan "main").run bench world ⟨.start false, none⟩).1 = .ok result ∧
        result.metadata.branch = "main" ∧ ∃ events entry commit,
          ((plan "main").run bench world ⟨.start false, none⟩).2.session =
            (Session.start false).after world events ∧
          entry ∈ entries events ∧ Grants commitRequest entry commit ∧
          entry.request.url.text ≠ devRequest.url.text ∧
          result.metadata.commitSha = commit.sha := by
  have hKept : Url.Kept "main".toList := by decide +kernel
  have hDevKept : Url.Kept "dev/1".toList := by decide +kernel
  obtain ⟨hApart, hRuns⟩ := run_branches_apart bench asksFor_main asksFor_dev rfl rfl (by decide)
    (by decide +kernel) hKept hDevKept
  obtain ⟨result, hOk, _⟩ := run_ok "main" List.mem_cons_self
  exact ⟨⟨asksFor_main, asksFor_dev, hKept, hDevKept⟩, hApart, result, hOk,
    hRuns world ⟨.start false, none⟩ result hOk⟩

open Branching in
open Moving (bench service commitRequest) in
/-- Branches whose names are not kept are asked for like another one, and a run
reports its commit under their names. -/
theorem run_branches_collide :
    AsksFor bench (plan "main") service commitRequest ∧
      ∀ branch ∈ ["main#2", "x/%2e%2e/main"],
        AsksFor bench (plan branch) service commitRequest ∧
          (plan branch).repository.owner = (plan "main").repository.owner ∧
          (plan branch).repository.repo = (plan "main").repository.repo ∧
          (plan branch).repository.branch ≠ (plan "main").repository.branch ∧
          ∃ result, ((plan branch).run bench world ⟨.start false, none⟩).1 = .ok result ∧
            result.metadata.branch = branch ∧ result.metadata.commitSha = "c" := by
  have hNames : ∀ branch ∈ lookalikes, branch ≠ "main" := by decide
  refine ⟨asksFor_main, fun branch hBranch => ?_⟩
  exact ⟨asksFor_lookalikes branch hBranch, rfl, rfl, hNames branch hBranch,
    run_ok branch (List.mem_cons_of_mem _ hBranch)⟩

end Run

end SourceIndex
