import ExecCounts.Record
import Std.Data.ExtTreeMap

set_option autoImplicit false

namespace ExecCounts

structure SiteStats where
  totalSites : Nat
  sitesWithValues : Nat
  totalValues : Nat
  histogram : Std.ExtTreeMap Nat Nat

namespace SiteStats

def empty : SiteStats := ⟨0, 0, 0, ∅⟩

def addSite (stats : SiteStats) (site : Site) : SiteStats where
  totalSites := stats.totalSites + 1
  sitesWithValues := stats.sitesWithValues + if site.isEmpty then 0 else 1
  totalValues := stats.totalValues + site.length
  histogram := stats.histogram.alter site.length fun before => some (before.getD 0 + 1)

def addRecord (kind : ValueKind) (stats : SiteStats) (record : FunctionRecord) : SiteStats :=
  match record.values with
  | none => stats
  | some values => (values.sites kind).foldl addSite stats

def display (stats : SiteStats) : String :=
  let rows := stats.histogram.toList.map fun (values, sites) =>
    s!"\t{Numeral.decimal values}, {Numeral.decimal sites}\n"
  s!"  Total number of sites: {Numeral.decimal stats.totalSites}\n" ++
    s!"  Total number of sites with values: {Numeral.decimal stats.sitesWithValues}\n" ++
    s!"  Total number of profiled values: {Numeral.decimal stats.totalValues}\n" ++
    "  Value sites histogram:\n\tNumTargets, SiteCount\n" ++ String.join rows

end SiteStats

end ExecCounts
