/-
This file makes new packages. What is there already is kept.
-/

import Intcode.Command.Report
import Intcode.FileSystem
import Intcode.Manifest.Basic

namespace Intcode.Scaffold

/-- Why a package can not be made. -/
inductive Problem where
  | noName
  | nameNotText
  | directoryRefused
  | manifestRefused
  | sourceDirectoryRefused
  | programRefused
deriving DecidableEq

def Problem.message : Problem → String
  | noName => "Can not determine directory name"
  | nameNotText => "Directory name is not representable"
  | directoryRefused => "Unable to create package directory"
  | manifestRefused => "Could not write manifest file"
  | sourceDirectoryRefused => "Could not create source directory"
  | programRefused => "Could not create program entrypoint"

/-- What a new program does is give back one value. -/
def programText : String := "3,0,4,0,99\n"

/-- What has been done so far. It stays done if a later step fails. -/
structure Progress where
  system : FileSystem
  reports : List Report

abbrev Step := ExceptT Problem (StateM Progress)

def report (tag : Tag) (message : String) : Step Unit :=
  modify fun progress => { progress with reports := progress.reports ++ [⟨tag, message⟩] }

def setSystem (system : FileSystem) : Step Unit :=
  modify fun progress => { progress with system := system }

def directory (path : Path) : Step Unit := do
  let (system, created) := (← get).system.createDirectories path
  setSystem system
  unless created do throw .directoryRefused

/-- Writes a file, or warns that there is one. -/
def file (path : Path) (text warning : String) (problem : Problem) : Step Unit := do
  let system := (← get).system
  if system.isFile path then
    report .warning warning
  else
    match system.write path (Text.encode text) with
    | some written => setSystem written
    | none => throw problem

def sourceDirectory (path : Path) : Step Unit := do
  let system := (← get).system
  unless system.isDirectory path do
    match system.createDirectory path with
    | .ok created => setSystem created
    | .error _ => throw .sourceDirectoryRefused

/-- A package has the name of its directory. -/
def packageName (path : Path) : Except Problem String :=
  match path.fileName? with
  | none => .error .noName
  | some name =>
      match Text.decode? name with
      | none => .error .nameNotText
      | some text => .ok text

def manifestPath (path : Path) : Path :=
  path.join (.ofString Manifest.fileName)

def sourcePath (path : Path) : Path :=
  path.join (.ofString Manifest.sourceName)

def programPath (path : Path) : Path :=
  (sourcePath path).join (.ofString Manifest.entrypointName)

def manifestWarning : String :=
  "The manifest file (" ++ Manifest.fileName ++ ") has already been created"

def programWarning : String :=
  "The program (" ++ Manifest.sourceName ++ "/" ++ Manifest.entrypointName ++
    ") has already been created"

/-- Makes a package at a path. -/
def package (path : Path) : Step Unit := do
  let name ← packageName path
  directory path
  file (manifestPath path) (Manifest.freshText name) manifestWarning .manifestRefused
  sourceDirectory (sourcePath path)
  file (programPath path) programText programWarning .programRefused
  report .finished ("The package '" ++ name ++ "' was created successfully")

end Intcode.Scaffold
