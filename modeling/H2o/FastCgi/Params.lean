/-
The parameters of a FastCGI request: `append_params` (`lib/handler/fastcgi.c`).

The parameters are the list of the pairs that `append_pair` is called with; how
the pairs are laid out in blocks is left out. A name or value that is a null
pointer in the source is `none`.

# Environment variables

A header is not sent if a variable of the environment has its name.
`envname_is_headername` compares with the upper case of the header's name,
while a parameter also has an underscore for each dash; and the authority and
the cookies are sent without the comparison. `EnvApart` says exactly when no
variable is sent twice nevertheless.
-/
import H2o.StringUtil

namespace H2o.FastCgi

open List

-- ==== append_params

/-- `h2o_toupper`. -/
def toUpper (ch : UInt8) : UInt8 :=
  if 0x61 ≤ ch ∧ ch ≤ 0x7a then ch - 0x20 else ch

/-- `h2o_filereq_t`. -/
structure FileReq where
  localPath : Bytes
  scriptName : Bytes
  pathInfo : Option Bytes

/-- An address, as far as it can be written as text. -/
structure Address where
  host : Option Bytes
  port : Option Nat

/-- The fields of `h2o_req_t` and its connection that are read here. -/
structure ParamsReq where
  entity : Option Bytes
  filereq : Option FileReq
  pathNormalized : Option Bytes
  path : Bytes
  queryAt : Option Nat
  peername : Option Address
  sockname : Option Address
  env : List (Bytes × Bytes)
  method : Bytes
  authority : Bytes
  inputAuthority : Bytes
  inputPath : Bytes
  host : Bytes
  version : Nat
  serverName : Bytes
  https : Bool
  headers : List Header
  earlyData : Bool

/-- The fields of `h2o_fastcgi_config_vars_t` that are read here. -/
structure ConfigVars where
  documentRoot : Option Bytes
  sendDelegatedUri : Bool

/-- `append_address_info`. -/
def addressInfo (addrlabel portlabel : String) (addr : Option Address) :
    List (Bytes × Bytes) :=
  addr.toList.flatMap fun a => a.host.toList.map (ascii addrlabel, ·) ++
    a.port.toList.map fun port => (ascii portlabel, decimal port)

/-- `envname_is_headername`. -/
def envnameIsHeadername (env header : Bytes) : Bool :=
  env.length = 5 + header.length ∧ env.take 5 = ascii "HTTP_" ∧
    env.drop 5 = header.map toUpper

/-- The name of the parameter for a header. -/
def headerParamName (name : Bytes) : Bytes :=
  ascii "HTTP_" ++ name.map fun ch => if ch = 0x2d then 0x5f else toUpper ch

/-- What is sent for a header; cookies come later. -/
def headerParam (env : List (Bytes × Bytes)) (h : Header) :
    Option (Bytes × Bytes) :=
  if h.name = .token .contentType then some (ascii "CONTENT_TYPE", h.value)
  else if h.name = .token .cookie then none
  else if env.any fun v => envnameIsHeadername v.1 h.name.bytes then none
  else some (headerParamName h.name.bytes, h.value)

/-- The cookies, merged. -/
def cookieParam (headers : List Header) : List (Bytes × Bytes) :=
  let cookies := headers.filter fun h => h.name = .token .cookie
  if cookies = [] then []
  else [(ascii "HTTP_COOKIE", [0x3b].intercalate (cookies.map Header.value))]

/-- The parameters that are made of the headers. -/
def headerParams (req : ParamsReq) : List (Bytes × Bytes) :=
  req.headers.filterMap (headerParam req.env) ++ cookieParam req.headers

/-- `HTTP_HOST` and `REQUEST_URI`. -/
def hostParams (config : ConfigVars) (req : ParamsReq) :
    List (Bytes × Bytes) :=
  if config.sendDelegatedUri then
    [(ascii "HTTP_HOST", req.authority), (ascii "REQUEST_URI", req.path)]
  else
    [(ascii "HTTP_HOST", req.inputAuthority),
      (ascii "REQUEST_URI", req.inputPath)]

/-- `h2o_stringify_protocol_version`. -/
def stringifyProtocolVersion (version : Nat) : Bytes :=
  if version < 0x200 then ascii "HTTP/1." ++
    [UInt8.ofNat (0x30 + version % 0x100)]
  else ascii "HTTP/" ++ [UInt8.ofNat (version / 0x100 + 0x30)]

/-- `append_params`. -/
def appendParams (config : ConfigVars) (req : ParamsReq) :
    List (Bytes × Bytes) :=
  let pathInfo := match req.filereq with
    | some filereq => filereq.pathInfo
    | none => req.pathNormalized
  req.entity.toList.map (fun e =>
    (ascii "CONTENT_LENGTH", decimal e.length)) ++
  (match req.filereq with
    | some filereq => [(ascii "SCRIPT_FILENAME", filereq.localPath),
        (ascii "SCRIPT_NAME", filereq.scriptName)]
    | none => [(ascii "SCRIPT_NAME", [])]) ++
  pathInfo.toList.map (ascii "PATH_INFO", ·) ++
  config.documentRoot.toList.flatMap (fun root =>
    (ascii "DOCUMENT_ROOT", root) ::
    pathInfo.toList.map fun path => (ascii "PATH_TRANSLATED", root ++ path)) ++
  [(ascii "QUERY_STRING", match req.queryAt with
    | some i => req.path.drop (i + 1)
    | none => [])] ++
  addressInfo "REMOTE_ADDR" "REMOTE_PORT" req.peername ++
  req.env ++
  [(ascii "REQUEST_METHOD", req.method)] ++
  hostParams config req ++
  addressInfo "SERVER_ADDR" "SERVER_PORT" req.sockname ++
  [(ascii "SERVER_NAME", req.host),
    (ascii "SERVER_PROTOCOL", stringifyProtocolVersion req.version),
    (ascii "SERVER_SOFTWARE", req.serverName)] ++
  (if req.https then [(ascii "HTTPS", ascii "on")] else []) ++
  headerParams req ++
  (if req.earlyData ∧ ∀ h ∈ req.headers, h.name ≠ .token .earlyData then
    [(ascii "HTTP_EARLY_DATA", ascii "1")] else [])

-- ==== names

/-- A variable is compared with the upper case of a header's name. -/
theorem envnameIsHeadername_iff {env name : Bytes} :
    envnameIsHeadername env name = true ↔
      env = ascii "HTTP_" ++ name.map toUpper := by
  have hlen : (ascii "HTTP_").length = 5 := rfl
  rw [envnameIsHeadername, decide_eq_true_iff]
  constructor
  · rintro ⟨-, htake, hdrop⟩
    rw [← htake, ← hdrop, take_append_drop]
  · rintro rfl
    rw [length_append, length_map, take_left' hlen, drop_left' hlen]
    exact ⟨rfl, rfl, rfl⟩

/-- Without a dash the two ways to write a name agree. -/
theorem headerParamName_of_no_dash {name : Bytes} (h : 0x2d ∉ name) :
    headerParamName name = ascii "HTTP_" ++ name.map toUpper := by
  rw [headerParamName, map_congr_left fun ch hch => if_neg ?_]
  rintro rfl
  exact h hch

/-- No variable of the environment has the name of the parameter, if that is
one for a header. -/
def Apart (env : List (Bytes × Bytes)) (p : Bytes × Bytes) : Prop :=
  ascii "HTTP_" <+: p.1 → ∀ v ∈ env, v.1 ≠ p.1

/-- `HTTP_HOST` is no variable; `HTTP_COOKIE` is none if there is a cookie; and
where a name with a dash is sent as the name of a variable, its upper case is
that of a variable too, so that the header is left out. -/
structure EnvApart (req : ParamsReq) : Prop where
  host : ∀ v ∈ req.env, v.1 ≠ ascii "HTTP_HOST"
  cookie : ∀ h ∈ req.headers, h.name = .token .cookie →
    ∀ v ∈ req.env, v.1 ≠ ascii "HTTP_COOKIE"
  dash : ∀ h ∈ req.headers, h.name ≠ .token .contentType →
    h.name ≠ .token .cookie → 0x2d ∈ h.name.bytes →
    ∀ v ∈ req.env, v.1 = headerParamName h.name.bytes →
      ∃ v' ∈ req.env, v'.1 = ascii "HTTP_" ++ h.name.bytes.map toUpper

theorem apart_host_iff (config : ConfigVars) (req : ParamsReq) :
    (∀ p ∈ hostParams config req, Apart req.env p) ↔
      ∀ v ∈ req.env, v.1 ≠ ascii "HTTP_HOST" := by
  have huri : ¬ascii "HTTP_" <+: ascii "REQUEST_URI" := by decide
  have hhost : ascii "HTTP_" <+: ascii "HTTP_HOST" := by decide
  unfold hostParams
  split <;> simp [Apart, huri, hhost]

theorem apart_cookie_iff (req : ParamsReq) :
    (∀ p ∈ cookieParam req.headers, Apart req.env p) ↔
      ∀ h ∈ req.headers, h.name = .token .cookie →
        ∀ v ∈ req.env, v.1 ≠ ascii "HTTP_COOKIE" := by
  have hcookie : ascii "HTTP_" <+: ascii "HTTP_COOKIE" := by decide
  unfold cookieParam
  simp only
  split
  next hnil =>
    have hnone := filter_eq_nil_iff.1 hnil
    simp only [decide_eq_true_eq] at hnone
    exact iff_of_true nofun fun h hh hname => absurd hname (hnone h hh)
  next hne =>
    obtain ⟨h, hh⟩ := exists_mem_of_ne_nil _ hne
    obtain ⟨hh, hname⟩ := mem_filter.1 hh
    rw [forall_mem_singleton]
    exact ⟨fun hap _ _ _ => hap hcookie,
      fun hall _ => hall h hh (of_decide_eq_true hname)⟩

/-- What is sent for a header is apart from the variables, unless its name has
a dash and is not left out. -/
theorem apart_header_iff (env : List (Bytes × Bytes)) (h : Header) :
    (∀ p ∈ headerParam env h, Apart env p) ↔
      (h.name ≠ .token .contentType → h.name ≠ .token .cookie →
        0x2d ∈ h.name.bytes → ∀ v ∈ env, v.1 = headerParamName h.name.bytes →
          ∃ v' ∈ env, v'.1 = ascii "HTTP_" ++ h.name.bytes.map toUpper) := by
  have hleft : (env.any fun v => envnameIsHeadername v.1 h.name.bytes) = true ↔
      ∃ v' ∈ env, v'.1 = ascii "HTTP_" ++ h.name.bytes.map toUpper := by
    simp only [any_eq_true, envnameIsHeadername_iff]
  unfold headerParam
  split_ifs with htype hcookie hany
  · have hctype : ¬ascii "HTTP_" <+: ascii "CONTENT_TYPE" := by decide
    exact iff_of_true (by simp [Apart, hctype]) fun h => absurd htype h
  · exact iff_of_true nofun fun _ h => absurd hcookie h
  · exact iff_of_true nofun fun _ _ _ _ _ _ => hleft.1 hany
  · simp only [Option.mem_some_iff, forall_eq']
    constructor
    · intro hap _ _ _ v hv hname
      exact absurd hname (hap (prefix_append _ _) v hv)
    · intro hdash _ v hv hname
      by_cases hmem : 0x2d ∈ h.name.bytes
      · exact hany (hleft.2 (hdash htype hcookie hmem v hv hname))
      · exact hany (hleft.2 ⟨v, hv,
          hname.trans (headerParamName_of_no_dash hmem)⟩)

/-- No parameter that is made of the request's headers, the authority among
them, has the name of a variable, exactly where the environment is apart. -/
theorem header_params_apart_iff (config : ConfigVars) (req : ParamsReq) :
    (∀ p ∈ hostParams config req ++ headerParams req,
      ascii "HTTP_" <+: p.1 → ∀ v ∈ req.env, v.1 ≠ p.1) ↔ EnvApart req := by
  have hheaders : (∀ p ∈ req.headers.filterMap (headerParam req.env),
      Apart req.env p) ↔ ∀ h ∈ req.headers, ∀ p ∈ headerParam req.env h,
        Apart req.env p := by
    simp only [mem_filterMap, forall_exists_index, and_imp, Option.mem_def]
    exact ⟨fun h x hx p hp => h p x hx hp, fun h p x hx hp => h x hx p hp⟩
  change (∀ p ∈ _, Apart req.env p) ↔ _
  rw [headerParams, forall_mem_append, forall_mem_append, apart_host_iff,
    apart_cookie_iff, hheaders]
  simp only [apart_header_iff]
  exact ⟨fun ⟨hhost, hdash, hcookie⟩ => ⟨hhost, hcookie, hdash⟩,
    fun h => ⟨h.host, h.dash, h.cookie⟩⟩

/-- A request for `/` with a variable and a header. -/
def envReq (var : String) (name : Name) : ParamsReq where
  entity := none
  filereq := none
  pathNormalized := some (ascii "/")
  path := ascii "/"
  queryAt := none
  peername := none
  sockname := none
  env := [(ascii var, ascii "server")]
  method := ascii "GET"
  authority := ascii "a"
  inputAuthority := ascii "a"
  inputPath := ascii "/"
  host := ascii "a"
  version := 0x101
  serverName := ascii "h2o"
  https := false
  headers := [⟨name, ascii "client", false⟩]
  earlyData := false

-- a name with a dash does no harm where no variable has its parameter's name
example : EnvApart (envReq "HTTP_X_USER" (.token .acceptEncoding)) :=
  ⟨by decide, by decide, by decide⟩

/-- A variable is sent again with the value of a header whose name has a dash,
and so are `HTTP_COOKIE` with the cookies and `HTTP_HOST` with the
authority. -/
theorem header_params_shadow_env :
    (appendParams ⟨none,
      false⟩ (envReq "HTTP_X_USER" (.buf (ascii "x-user")))).filter
      (fun p => p.1 = ascii "HTTP_X_USER") =
      [(ascii "HTTP_X_USER", ascii "server"),
        (ascii "HTTP_X_USER", ascii "client")] ∧
    (appendParams ⟨none, false⟩ (envReq "HTTP_COOKIE" (.token .cookie))).filter
      (fun p => p.1 = ascii "HTTP_COOKIE") =
      [(ascii "HTTP_COOKIE", ascii "server"),
        (ascii "HTTP_COOKIE", ascii "client")] ∧
    (appendParams ⟨none,
      false⟩ (envReq "HTTP_HOST" (.buf (ascii "x-a")))).filter
      (fun p => p.1 = ascii "HTTP_HOST") =
      [(ascii "HTTP_HOST", ascii "server"),
        (ascii "HTTP_HOST", ascii "a")] := by
  decide

end H2o.FastCgi
