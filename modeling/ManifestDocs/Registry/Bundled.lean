/-
The registry with the plugin that comes with it.
-/
import ManifestDocs.Plugin.Puppet
import ManifestDocs.Registry

namespace ManifestDocs.Registry

/-- The label of the plugin that comes with the registry. -/
def bundledLabel : String := "bundled"

/-- The registry with the plugin for manifests, in its own configuration, and what was logged. -/
def bundled (o : Options) : Except Fault Registry × List LogRecord :=
  match PuppetPlugin.ofConfiguration PuppetPlugin.bundledConfiguration o Runtime.default with
  | .error f => (.error f, [])
  | .ok p =>
    match empty.register (p.toPlugin bundledLabel) with
    | (.error f, _, records) => (.error f, PuppetPlugin.readyRecord :: records)
    | (.ok (), r, records) => (.ok r, PuppetPlugin.readyRecord :: records)

end ManifestDocs.Registry
