import Mathlib.Data.List.Basic

namespace VetWaf.Http.Redirect
open List Nat

abbrev Text := List Char

inductive RedirVar where
  | uri
  | host
  deriving DecidableEq

/-- A character of a redirect value, or a variable -/
inductive UrlPart where
  | chr (c : Char)
  | var (x : RedirVar)

/-- What the loop over the value finds from each position on -/
def urlParts : Text → List UrlPart
  | '$' :: 'r' :: 'e' :: 'q' :: 'u' :: 'e' :: 's' :: 't' :: '_' :: 'u' :: 'r' :: 'i' :: pos => .var .uri::urlParts pos
  | '$' :: 'h' :: 'o' :: 's' :: 't' :: pos => .var .host::urlParts pos
  | c::pos => .chr c::urlParts pos
  | [] => []

/-- The literals `url.chunks` and the variables -/
structure TfwHttpRedir where
  url : List Text
  var : List RedirVar

def maxRedirVars : Nat := 8

/-- `CREATE_CHUNK()` after the loop, unless there is nothing left -/
def lastChunk (lit : Text) : TfwHttpRedir := ⟨if lit=[] then [] else [lit],[]⟩

def compile : Nat → Text → List UrlPart → TfwHttpRedir
  | _, lit, [] => lastChunk lit
  | i, lit, part::pos =>
    if i < maxRedirVars then
      match part with
      | .chr c => compile i (lit++[c]) pos
      | .var x =>
        let rest := compile (i+1) [] pos
        ⟨lit::rest.url,x::rest.var⟩
    else lastChunk lit

/-- `tfw_cfgop_http_rule` for a redirection -/
def tfwCfgopHttpRule (val : Text) : Option TfwHttpRedir :=
  let redir := compile 0 [] (urlParts val)
  if maxRedirVars≤redir.var.length then none else some redir

/-- `RESP_BUF_LEN - SLEN(S_V_DATE)` -/
def urlRoom : Nat := 2048-29

/-- `sizeof(TfwStr)` -/
def strSize : Nat := 32

/-- There is no room for another descriptor. -/
def noRoom (urlChunks : List Text) : Prop := urlRoom<(urlChunks.length+1)*strSize

instance (urlChunks : List Text) : Decidable (noRoom urlChunks) := by
  unfold noRoom
  infer_instance

/-- The loop of `tfw_http_req_redir`. -/
def redirLoop (val : RedirVar → List Text) : List Text → List RedirVar → List Text → Bool×List Text
  | [], _, urlChunks => (true,urlChunks)
  | c::url, var, urlChunks =>
    if noRoom urlChunks then (false,urlChunks)
    else
      match var with
      | [] => (true,urlChunks++[c])
      | x::var =>
        if noRoom (urlChunks++[c]) then (false,urlChunks++[c])
        else redirLoop val url var (urlChunks++[c]++val x)

def eachChunk : List Text → List Text
  | [] => [[]]
  | chunks => chunks

def varChunks (uriPath host : List Text) : RedirVar → List Text
  | .uri => uriPath
  | .host => host

def tfwHttpReqRedir (redir : TfwHttpRedir) (uriPath host : List Text) : Bool×List Text :=
  redirLoop (varChunks uriPath host) (eachChunk redir.url) redir.var []

variable (val : RedirVar → List Text)

/-- The variables of a value are replaced from left to right. -/
def location (val : RedirVar → List Text) (parts : List UrlPart) : Text := parts.flatMap fun
    | .chr c => [c]
    | .var x => (val x).flatten

def interleave (val : RedirVar → List Text) : List Text → List RedirVar → Text
  | [], _ => []
  | c::_, [] => c
  | c::url, x::var => c++(val x).flatten++interleave val url var

lemma lastChunk_spec (lit : Text) : interleave val (lastChunk lit).url []=lit ∧ (lastChunk lit).var=[] := by
  unfold lastChunk
  split_ifs with h
  · exact ⟨h.symm,rfl⟩
  · exact ⟨rfl,rfl⟩

lemma compile_spec (i : Nat) (lit : Text) (parts : List UrlPart)
    (h : i+(compile i lit parts).var.length < maxRedirVars) :
    interleave val (compile i lit parts).url (compile i lit parts).var=lit++location val parts ∧
      (compile i lit parts).var.length≤(compile i lit parts).url.length := by
  induction parts generalizing i lit with
  | nil =>
    obtain ⟨hu,hv⟩ := lastChunk_spec val lit
    rw [compile,hv,hu]
    exact ⟨(append_nil lit).symm,zero_le _⟩
  | cons part pos ih =>
    have hi : i < maxRedirVars := by omega
    cases part with
    | chr c =>
      simp only [compile,if_pos hi] at h ⊢
      obtain ⟨hu,hl⟩ := ih i (lit++[c]) h
      refine ⟨?_,hl⟩
      simp only [hu,location,flatMap_cons,append_assoc]
    | var x =>
      simp only [compile,if_pos hi,length_cons] at h ⊢
      obtain ⟨hu,hl⟩ := ih (i+1) [] (by omega)
      refine ⟨?_,succ_le_succ hl⟩
      simp only [interleave,hu,location,flatMap_cons,append_assoc,nil_append]

variable {url : List Text} {var : List RedirVar}
lemma flatten_redirLoop {st : List Text} (h : (redirLoop val url var st).1=true) :
    (redirLoop val url var st).2.flatten=st.flatten++interleave val url var := by
  induction url generalizing var st with
  | nil => simp [redirLoop,interleave]
  | cons c url ih =>
    cases var with
    | nil =>
      simp only [redirLoop] at h ⊢
      split_ifs at h ⊢
      simp [interleave]
    | cons x var =>
      simp only [redirLoop] at h ⊢
      split_ifs at h ⊢
      rw [ih h]
      simp [interleave]

lemma length_le_redirLoop (url : List Text) (var : List RedirVar) (st : List Text) :
    st.length≤(redirLoop val url var st).2.length := by
  induction url generalizing var st with
  | nil => exact Nat.le_refl _
  | cons c url ih =>
    cases var with
    | nil =>
      simp only [redirLoop]
      split_ifs <;> simp
    | cons x var =>
      simp only [redirLoop]
      split_ifs
      · exact Nat.le_refl _
      · simp
      · refine Nat.le_trans ?_ (ih _ _)
        simp only [length_append]
        omega

/-- With `k` descriptors stored, the next variables have these numbers of chunks. -/
def chunksFit : Nat → List Nat → Bool
  | _, [] => true
  | k, n::ns => decide (urlRoom<(k+2)*strSize) || decide ((k+1+n)*strSize≤urlRoom) && chunksFit (k+1+n) ns

lemma redirLoop_fits_iff (st : List Text) (hl : var.length≤url.length) (hst : st.length*strSize≤urlRoom) :
    (redirLoop val url var st).2.length*strSize≤urlRoom ↔
      chunksFit st.length (var.map fun x => (val x).length)=true := by
  induction url generalizing var st with
  | nil =>
    obtain rfl : var=[] := length_eq_zero_iff.1 (Nat.le_zero.1 hl)
    exact iff_of_true hst rfl
  | cons c url ih =>
    cases var with
    | nil =>
      refine iff_of_true ?_ rfl
      simp only [redirLoop]
      split_ifs with hr
      · exact hst
      · simpa [noRoom] using hr
    | cons x var =>
      have hl' : (st++[c]++val x).length=st.length+1+(val x).length := by simp only [length_append,length_singleton]
      simp only [redirLoop]
      split_ifs with hr hr'
      · have hf : urlRoom<(st.length+2)*strSize := by
          simp only [noRoom,strSize] at hr ⊢
          omega
        exact iff_of_true hst (by simp [chunksFit,hf])
      · have hf : urlRoom<(st.length+2)*strSize := by simpa [noRoom] using hr'
        exact iff_of_true (by simpa [noRoom] using hr) (by simp [chunksFit,hf])
      · have hf : ¬urlRoom<(st.length+2)*strSize := by simpa [noRoom] using hr'
        by_cases hfi : (st.length+1+(val x).length)*strSize≤urlRoom
        · rw [ih _ (Nat.le_of_succ_le_succ hl) (by rwa [hl']),hl']
          simp [chunksFit,hf,hfi]
        · -- the chunks of the variable went over the end of the buffer
          have hle := length_le_redirLoop val url var (st++[c]++val x)
          rw [hl'] at hle
          refine iff_of_false (fun h => hfi (Nat.le_trans (Nat.mul_le_mul_right _ hle) h)) ?_
          simp [chunksFit,hf,hfi]

/-- A redirection gives up or has the right location, and its descriptors stay in the buffer, exactly when each variable
fits with all its chunks wherever one more descriptor does. -/
theorem redirection_iff (v : Text) (redir : TfwHttpRedir) (hrule : tfwCfgopHttpRule v=some redir)
    (uriPath host : List Text) : (((tfwHttpReqRedir redir uriPath host).1=true →
          (tfwHttpReqRedir redir uriPath host).2.flatten=location (varChunks uriPath host) (urlParts v)) ∧
        (tfwHttpReqRedir redir uriPath host).2.length*strSize≤urlRoom) ↔
      chunksFit 0 (redir.var.map fun x => (varChunks uriPath host x).length)=true := by
  simp only [tfwCfgopHttpRule] at hrule
  split_ifs at hrule with hm
  cases hrule
  obtain ⟨hu,hl⟩ := compile_spec (varChunks uriPath host) 0 [] (urlParts v) (by omega)
  have he (url : List Text) (var : List RedirVar) (hle : var.length≤url.length) :
      interleave (varChunks uriPath host) (eachChunk url) var=interleave (varChunks uriPath host) url var ∧
        var.length≤(eachChunk url).length := by
    cases url with
    | nil =>
      obtain rfl : var=[] := length_eq_zero_iff.1 (le_zero.1 hle)
      exact ⟨rfl,zero_le _⟩
    | cons c url => exact ⟨rfl,hle⟩
  obtain ⟨hs,hl'⟩ := he _ _ hl
  have hf := redirLoop_fits_iff (varChunks uriPath host) [] hl' (zero_le _)
  refine ⟨fun h => hf.1 h.2,fun h => ⟨fun hok => ?_,hf.2 h⟩⟩
  rw [tfwHttpReqRedir,flatten_redirLoop _ hok,hs,hu]
  rfl

/-- `https://$host/x$request_uri` for a host in two chunks -/
theorem redirection_iff_two_chunks : ∃redir,tfwCfgopHttpRule "https://$host/x$request_uri".toList=some redir ∧
      (tfwHttpReqRedir redir ["/a".toList] ["www.".toList, "b".toList]).2.flatten = "https://www.b/x/a".toList := by
  refine ⟨_,rfl,?_⟩
  exact ((redirection_iff "https://$host/x$request_uri".toList _ rfl ["/a".toList] ["www.".toList, "b".toList]).2
    (by decide)).1 (by decide)

/-- The URI comes in 70 chunks. -/
theorem redirection_overflows : (tfwCfgopHttpRule "$request_uri".toList).map (fun redir =>
      ((tfwHttpReqRedir redir (replicate 70 ['/']) []).2.length*strSize,urlRoom))=some (2272,2019) := by
  decide +kernel
end VetWaf.Http.Redirect
