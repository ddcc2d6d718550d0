import Certman.Merge

/-!
# The runtime of a command

`create_runtime` builds the directory layout from the CLI's `--data-dir`, loads the `.env` of
`<data_dir>/conf` into the environment without overriding it, picks the configuration file
(`--config-file`, else `CERTMAN_CONFIG_FILE`, else `config.toml`), merges the configuration,
and lets a `data_dir` of the configuration that differs from the CLI's move the layout there.
Only that second branch reads the configured subdirectory names.
-/

namespace Certman

/-- `Paths`. -/
structure Paths where
  dataDir : Path
  confDir : Path
  runDir : Path
  logDir : Path
  outputDir : Path
deriving DecidableEq, Repr

/-- `Runtime`: the context object every command reads. -/
structure Runtime where
  paths : Paths
  config : AppConfig
  env : Env

/-- What `create_runtime` reads from the machine. -/
structure Host where
  /-- `os.environ` when the command starts. -/
  environ : Env
  /-- The variables the `.env` file at a path sets, as `python-dotenv` parses it. -/
  dotenv : Path → Env
  /-- The configuration directory at a path. -/
  confDir : Path → ConfDir

/-- The layout `create_runtime` returns for the CLI's `data_dir` and the merged config. -/
def runtimePaths (dataDir : String) (config : AppConfig) : Paths :=
  let base := Path.ofStr dataDir
  let g := config.global_
  if g.dataDir != "" && g.dataDir != dataDir then
    let base := Path.ofStr g.dataDir
    ⟨base, base.div g.confDir, base.div g.runDir, base.div g.logDir, base.div g.outputDir⟩
  else ⟨base, base.div "conf", base.div "run", base.div "log", base.div "output"⟩

/-- `create_runtime`. -/
def createRuntime (host : Host) (dataDir : String) (configFile : Option String) :
    Except LoadError Runtime := do
  let confDir := (Path.ofStr dataDir).div "conf"
  let env : Env := fun k => (host.environ k).orElse fun _ => host.dotenv (confDir.div ".env") k
  let configFilename :=
    if truthy configFile then configFile.getD ""
    else if truthy (env "CERTMAN_CONFIG_FILE") then (env "CERTMAN_CONFIG_FILE").getD ""
    else "config.toml"
  let cfgPath := confDir.div configFilename
  let config ← loadMergedConfig (host.confDir cfgPath.parent) cfgPath.name
  pure ⟨runtimePaths dataDir config, config, env⟩

theorem createRuntime_paths {host : Host} {dataDir : String} {configFile : Option String}
    {rt : Runtime} (h : createRuntime host dataDir configFile = .ok rt) :
    rt.paths = runtimePaths dataDir rt.config := by
  obtain ⟨config, -, h⟩ := bind_eq_ok_iff.mp h
  cases h
  rfl

/-- A configuration without `data_dir` moves the data directory of `--data-dir /srv/certman` to
`data`; one whose `data_dir` is the CLI's keeps the default `run` directory in place of the
configured `state`. -/
theorem createRuntime_layout_depends_on_branch :
    let host (glob : Value) : Host := ⟨fun _ => none, fun _ _ => none,
      fun _ => ⟨fun n => if n = "config.toml" then some (.dict [("global", glob)]) else none,
        fun _ => []⟩⟩
    ((createRuntime (host (.dict [])) "/srv/certman" none).map (·.paths.dataDir) =
        .ok (Path.ofStr "data")) ∧
      ((createRuntime (host (.dict [("data_dir", .str "data"), ("run_dir", .str "state")])) "data"
        none).map (·.paths.runDir) = .ok (Path.ofStr "data/run")) :=
  ⟨rfl, rfl⟩

end Certman
